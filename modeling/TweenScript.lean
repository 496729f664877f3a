import TweenScript.Ease.Curve
import TweenScript.Main
import TweenScript.Proofs.Asset.Order
import TweenScript.Proofs.Asset.Phases
import TweenScript.Proofs.Asset.RoundTrip
import TweenScript.Proofs.Atomicity
import TweenScript.Proofs.Building
import TweenScript.Proofs.CallSites
import TweenScript.Proofs.Catalogue
import TweenScript.Proofs.Dialogue.Places
import TweenScript.Proofs.Dialogue.Requests
import TweenScript.Proofs.ExpressionPrograms
import TweenScript.Proofs.Grammar.Parsing
import TweenScript.Proofs.Layers
import TweenScript.Proofs.Lexing.Lexemes
import TweenScript.Proofs.Lexing.Separators
import TweenScript.Proofs.Machine.Texts
import TweenScript.Proofs.Opacity
import TweenScript.Proofs.Respelling
import TweenScript.Proofs.Session.Completion
import TweenScript.Proofs.Session.Custody
import TweenScript.Proofs.Session.Order
import TweenScript.Proofs.Session.Permanence
import TweenScript.Proofs.Session.Resumption
import TweenScript.Proofs.Views.Equality
import TweenScript.Proofs.Views.Purity

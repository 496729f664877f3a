import TweenScript.Proofs.Dialogue
import TweenScript.Proofs.Grammar.Completeness
import TweenScript.Proofs.Scanning

/-!
# Parsers accept the grammar

A text is a program exactly if it scans to its end without a fault and its tokens spell one.
-/

namespace TweenScript

namespace Parser

theorem conclude_eq_ok_iff {α : Type} {ts : Tokens} {x : Except Refusal α} {a : α} :
    (conclude ts x).1 = .ok a ↔ ts.fault = none ∧ x = .ok a := by
  cases x with
  | ok b => cases hf : ts.fault <;> simp [conclude, hf]
  | error refusal =>
    simp only [conclude]
    split <;> simp

theorem run_eq_ok_iff {α : Type} {read : List Token → Except Refusal α} {text : String} {a : α} :
    ((ofString text).run read).1 = .ok a ↔ ∃ ts, Scans text ts ∧ read ts = .ok a := by
  have hrun : ((ofString text).run read).1 = (conclude (Scanner.ofString text).tokens
      (read ((Scanner.ofString text).tokens.list.map (·.1)))).1 := rfl
  rw [hrun, conclude_eq_ok_iff]
  constructor
  · rintro ⟨hfault, hread⟩
    exact ⟨_, scans_iff.mpr ⟨hfault, rfl⟩, hread⟩
  · rintro ⟨ts, hts, hread⟩
    obtain ⟨hfault, rfl⟩ := scans_iff.mp hts
    exact ⟨hfault, hread⟩

end Parser

theorem ParseMode.parse_eq_ok_iff {m : ParseMode} {text : String} {tree : m.Tree} :
    m.parse text = .ok tree ↔ ∃ ts, Scans text ts ∧ m.read ts = .ok tree := by
  cases m <;> exact Parser.run_eq_ok_iff

/-- **The parser accepts the grammar**: a text parses to `s` exactly if it scans without a fault and
its tokens spell `s`. -/
theorem parseProgram_eq_ok_iff (text : String) (s : Statement) :
    parseProgram text = .ok s ↔ ∃ ts, Scans text ts ∧ SpellsProgram ts s := by
  simp only [← readProgram_eq_ok_iff]
  exact Parser.run_eq_ok_iff

end TweenScript

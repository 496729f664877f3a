import TweenScript.Proofs.ExpressionPrograms

/-!
# Easings spelled in full

In tokens that spell a tree every name behind a dot is the name of a link, and another name of the same link
does as well (`Spells.respells`). In a text the full name of an easing can be put for the name that stands
there: it is one word, as that one is, and what is before it cannot tell them apart (`Tokenizes.respell`).
So the names that a parser takes behind a dot are those of the catalogue and of the other links, and a text
says the same with its easings spelled in full (`ParseMode.easings_named`).
-/

namespace TweenScript

/-! ## Words -/

namespace Lexical

/-- What is read as an identifier where it stands and ends. -/
structure Word (name : String) : Prop where
  letters : ∃ first run, name.toList = first :: run ∧ WordStart first ∧ ∀ c ∈ run, WordPart c
  noKeyword : keywords.lookup name = none

theorem meaning_eq_identifier_iff {word name : String} :
    meaning word = .identifier name ↔ name = word ∧ keywords.lookup word = none := by
  rw [meaning]
  cases found : keywords.lookup word with
  | none => simp [eq_comm]
  | some t =>
    obtain ⟨before, after, entries, -⟩ := List.lookup_eq_some_iff.mp found
    have mem : (word, t) ∈ keywords := entries ▸ List.mem_append_right _ List.mem_cons_self
    have noIdentifier : t ≠ .identifier name := by
      rintro rfl
      simp [keywords] at mem
    simpa using noIdentifier

theorem lexes_identifier_iff {lexeme rest : List Char} {name : String} :
    Lexes lexeme rest (.ok (.identifier name)) ↔
      lexeme = name.toList ∧ Word name ∧ ∀ c, rest.head? = some c → ¬ WordPart c := by
  constructor
  · intro lexes
    generalize content : Except.ok (Token.identifier name) = result at lexes
    cases lexes with
    | @word first run _ begins spans =>
      obtain ⟨rfl, noKeyword⟩ := meaning_eq_identifier_iff.mp (Except.ok.inj content).symm
      refine ⟨String.toList_ofList.symm, ⟨⟨first, run, String.toList_ofList, begins, ?_⟩, ?_⟩, ?_⟩
      · exact spans.inside
      · exact noKeyword
      · exact spans.ends
    | spelling mem _ _ =>
      cases content
      simp [spellings] at mem
    | _ => cases content
  · rintro ⟨rfl, ⟨⟨first, run, chars, begins, inside⟩, noKeyword⟩, ends⟩
    have meant : meaning (String.ofList (first :: run)) = .identifier name := by
      rw [← chars, String.ofList_toList]
      exact meaning_eq_identifier_iff.mpr ⟨rfl, noKeyword⟩
    rw [chars, ← meant]
    exact .word begins ⟨inside, ends⟩

theorem Word.trivia_eq_zero {name : String} (h : Word name) (rest : List Char) :
    trivia (name.toList ++ rest) = 0 := by
  obtain ⟨first, run, chars, begins, -⟩ := h.letters
  have continues : WordPart first := by
    rcases begins with letter | other
    · exact .inl letter
    · exact .inr (.inr other)
  have noSlash : first ≠ '/' := by
    rintro rfl
    exact absurd ((beginsWord_iff '/').mpr begins) (by decide)
  have noComment (c : Char) : ¬ ['/', c] <+: first :: (run ++ rest) := fun found =>
    noSlash (List.cons_prefix_cons.mp found).1.symm
  rw [chars, List.cons_append, trivia_eq_zero_iff (noComment '*')]
  exact ⟨fun blank => not_wordPart_of_blank first blank continues, noComment '/'⟩

/-- A word of a text can be replaced by another one that begins like it. -/
theorem Tokenizes.respell {name name' : String} (word : Word name')
    (begins : name'.toList.head? = name.toList.head?) {cs : List Char} {front back : List Token}
    (h : Tokenizes cs (front ++ .identifier name :: back)) :
    ∃ before behind, cs = before ++ (name.toList ++ behind) ∧
      Tokenizes (before ++ (name'.toList ++ behind)) (front ++ .identifier name' :: back) := by
  induction front generalizing cs with
  | nil =>
    cases h with
    | @token gap lexeme rest _ _ longest lexes more =>
      obtain ⟨rfl, -, ends⟩ := lexes_identifier_iff.mp lexes
      have lexes' : Lexes name'.toList rest (.ok (.identifier name')) :=
        lexes_identifier_iff.mpr ⟨rfl, word, ends⟩
      have isGap : Gap gap (name'.toList ++ rest) :=
        longest.isGap.before (List.append_ne_nil_of_left_ne_nil lexes.not_comment.1 rest) _
      exact ⟨gap, rest, rfl,
        .token (longestGap_iff.mpr ⟨isGap, word.trivia_eq_zero rest⟩) lexes' more⟩
  | cons t front ih =>
    cases h with
    | @token gap lexeme rest _ _ longest lexes more =>
      obtain ⟨before, behind, rfl, more'⟩ := ih more
      -- what is before the word sees its first character at most
      have admits : Admits (before ++ (name.toList ++ behind)) (before ++ (name'.toList ++ behind)) := by
        obtain ⟨first, run, chars, -⟩ := word.letters
        rw [chars, List.head?_cons] at begins
        refine Admits.prepend ⟨first, ?_, .inl ?_⟩ before
        · rw [chars]
          rfl
        · rw [List.head?_append, ← begins]
          rfl
      refine ⟨gap ++ (lexeme ++ before), behind, by simp, ?_⟩
      have tokens := Tokenizes.token (longest.admits lexes admits) (lexes.admits admits) more'
      simpa using tokens

end Lexical

open Lexical

/-- A word of a text can be replaced by another one that begins like it. -/
theorem Scans.respell {text name name' : String} {front back : List Token} (word : Word name')
    (begins : name'.toList.head? = name.toList.head?)
    (scans : Scans text (front ++ .identifier name :: back)) :
    ∃ before behind, text = before ++ name ++ behind ∧
      Scans (before ++ name' ++ behind) (front ++ .identifier name' :: back) := by
  obtain ⟨before, behind, chars, tokens⟩ := (scans_iff_tokenizes.mp scans).respell word begins
  refine ⟨String.ofList before, String.ofList behind, ?_, scans_iff_tokenizes.mpr ?_⟩
  · exact String.toList_inj.mp (by simp [chars])
  · simpa using tokens

namespace Ease

theorem head?_join (m f : String) : (mark ++ m ++ f).toList.head? = some 'E' := by
  rw [toList_join]
  rfl

theorem letters_of_tables : (∀ m ∈ modes, m.1.toList.all Char.isAlpha) ∧
    ∀ f ∈ families, f.1.toList.all Char.isAlpha := by
  decide

theorem word_join {m : String × EaseMode} {f : String × EaseFamily} (hm : m ∈ modes)
    (hf : f ∈ families) : Word (mark ++ m.1 ++ f.1) where
  letters := by
    refine ⟨'E', 'a' :: 's' :: 'e' :: (m.1.toList ++ f.1.toList), toList_join m.1 f.1,
      .inl (by decide), fun c hc => .inl ?_⟩
    have all : ('a' :: 's' :: 'e' :: (m.1.toList ++ f.1.toList)).all Char.isAlpha := by
      simp [letters_of_tables.1 m hm, letters_of_tables.2 f hf]
    exact List.all_eq_true.mp all c hc
  noKeyword := by
    have other : ∀ p ∈ keywords, p.1.toList.head? ≠ some 'E' := by decide
    refine List.lookup_eq_none_iff.mpr fun p hp => ?_
    rw [bne_iff_ne]
    intro same
    exact other p hp (same ▸ head?_join m.1 f.1)

end Ease

/-! ## Names of links -/

/-- Tokens with a property in which every name behind a dot is `Then` or the name of a link with arguments, and
which keep the property with any other name of that link there. -/
structure Respells (P : List Token → Prop) (ts : List Token) : Prop where
  holds : P ts
  noDot : ts.getLast? ≠ some (.symbol .dot)
  named : ∀ front name back, ts = front ++ .symbol .dot :: .identifier name :: back →
    name = "Then" ∨ ∃ make, LinkName name make ∧ ∀ name', LinkName name' make →
      P (front ++ .symbol .dot :: .identifier name' :: back)

namespace Respells

variable {P Q R : List Token → Prop} {ts us : List Token}

theorem mono (h : Respells P ts) (weaker : ∀ xs, P xs → R xs) : Respells R ts where
  holds := weaker ts h.holds
  noDot := h.noDot
  named front name back split := by
    obtain andThen | ⟨make, named, other⟩ := h.named front name back split
    · exact .inl andThen
    · exact .inr ⟨make, named, fun name' named' => weaker _ (other name' named')⟩

theorem nil (holds : P []) : Respells P [] where
  holds := holds
  noDot := nofun
  named front _ _ split := by simp at split

theorem single {t : Token} (noDot : t ≠ .symbol .dot) (holds : P [t]) : Respells P [t] where
  holds := holds
  noDot := by simpa using noDot
  named front name back split := by
    have lengths := congrArg List.length split
    simp at lengths
    omega

theorem append (h : Respells P ts) (h' : Respells Q us)
    (join : ∀ xs ys, P xs → Q ys → R (xs ++ ys)) : Respells R (ts ++ us) where
  holds := join ts us h.holds h'.holds
  noDot := by
    have noDot := h'.noDot
    rw [List.getLast?_append]
    cases last : us.getLast? with
    | none => exact h.noDot
    | some t =>
      rw [last] at noDot
      exact noDot
  named front name back split := by
    have inSecond (more : List Token) (before : front = ts ++ more)
        (behind : us = more ++ .symbol .dot :: .identifier name :: back) :
        name = "Then" ∨ ∃ make, LinkName name make ∧ ∀ name', LinkName name' make →
          R (front ++ .symbol .dot :: .identifier name' :: back) := by
      obtain andThen | ⟨make, named, other⟩ := h'.named more name back behind
      · exact .inl andThen
      · refine .inr ⟨make, named, fun name' named' => ?_⟩
        rw [before, List.append_assoc]
        exact join _ _ h.holds (other name' named')
    obtain ⟨more, before, behind⟩ | ⟨more, before, behind⟩ := List.append_eq_append_iff.mp split
    · exact inSecond more before behind
    · rcases more with _ | ⟨t, _ | ⟨t', more⟩⟩
      · exact inSecond [] (by simpa using before.symm) behind.symm
      -- cut between a dot and its name, the first tokens would end in the dot
      · cases behind
        exact absurd (by simp [before]) h.noDot
      · cases behind
        obtain andThen | ⟨make, named, other⟩ := h.named front name more before
        · exact .inl andThen
        · refine .inr ⟨make, named, fun name' named' => ?_⟩
          have joined := join _ _ (other name' named') h'.holds
          simpa using joined

theorem behind {t : Token} (noDot : t ≠ .symbol .dot) (h : Respells P ts)
    (join : ∀ xs, P xs → R (t :: xs)) : Respells R (t :: ts) :=
  (single (P := (· = [t])) noDot rfl).append h fun _ xs first holds => first ▸ join xs holds

theorem before {t : Token} (noDot : t ≠ .symbol .dot) (h : Respells P ts)
    (join : ∀ xs, P xs → R (xs ++ [t])) : Respells R (ts ++ [t]) :=
  h.append (single (P := (· = [t])) noDot rfl) fun xs _ holds last => last ▸ join xs holds

theorem between {t : Token} (noDot : t ≠ .symbol .dot) (h : Respells P ts) (h' : Respells Q us)
    (join : ∀ xs ys, P xs → Q ys → R (xs ++ t :: ys)) : Respells R (ts ++ t :: us) := by
  have second : Respells (fun zs => ∃ ys, zs = t :: ys ∧ Q ys) (t :: us) :=
    h'.behind noDot fun ys holds => ⟨ys, rfl, holds⟩
  refine h.append second ?_
  rintro xs _ first ⟨ys, rfl, holds⟩
  exact join xs ys first holds

theorem enclosed {t t' : Token} (noDot : t ≠ .symbol .dot) (noDot' : t' ≠ .symbol .dot)
    (h : Respells P ts) (join : ∀ xs, P xs → R (t :: (xs ++ [t']))) :
    Respells R (t :: (ts ++ [t'])) := by
  have closed : Respells (fun zs => ∃ xs, zs = xs ++ [t'] ∧ P xs) (ts ++ [t']) :=
    h.before noDot' fun xs holds => ⟨xs, rfl, holds⟩
  refine closed.behind noDot ?_
  rintro _ ⟨xs, rfl, holds⟩
  exact join xs holds

theorem parenthesized (h : Respells P ts) :
    Respells (fun zs => ∃ xs, zs = parenthesized xs ∧ P xs) (parenthesized ts) := by
  show Respells _ (.symbol .lparen :: (ts ++ [.symbol .rparen]))
  exact h.enclosed nofun nofun fun xs holds => ⟨xs, rfl, holds⟩

theorem link {name : String} (isName : name = "Then" ∨ ∃ make, LinkName name make ∧
      ∀ name', LinkName name' make → R (.symbol .dot :: .identifier name' :: ts))
    (h : Respells P ts) (join : ∀ xs, P xs → R (.symbol .dot :: .identifier name :: xs)) :
    Respells R (.symbol .dot :: .identifier name :: ts) where
  holds := join ts h.holds
  noDot := by
    have noDot := h.noDot
    cases ts with
    | nil => nofun
    | cons t ts => simpa using noDot
  named front other back split := by
    rcases front with _ | ⟨t, _ | ⟨t', front⟩⟩
    · cases split
      exact isName
    · cases split
    · cases split
      obtain andThen | ⟨make, named, respelled⟩ := h.named front other back rfl
      · exact .inl andThen
      · exact .inr ⟨make, named, fun name' named' => join _ (respelled name' named')⟩

end Respells

/-- In tokens that spell a tree every name behind a dot is the name of a link, and they spell the same tree
with another name of that link. -/
theorem Spells.respells {c : Category} {ts : List Token} {v : c.Tree} (h : Spells c ts v) :
    Respells (Spells c · v) ts := by
  induction h with
  | block _ ih => exact ih.enclosed nofun nofun fun _ => .block
  | @when _ _ condition body _ _ ihc ihb =>
    have rest := ihc.parenthesized.append ihb
      (R := fun zs => Spells .statement (.symbol .when :: zs) (Statement.when condition body)) (by
        rintro _ ys ⟨xs, rfl, hc⟩ hb
        exact .when hc hb)
    exact rest.behind nofun fun _ => id
  | exprStatement _ ih => exact ih.before nofun fun _ => .exprStatement
  | noStatements => exact .nil .noStatements
  | moreStatements _ _ ihs ihb => exact ihs.append ihb fun _ _ => .moreStatements
  | plain _ ih => exact ih.mono fun _ => .plain
  | @conditional _ _ _ condition yes no _ _ _ ihc ihy ihn =>
    have branches := ihy.between (t := .symbol .colon) nofun ihn
      (R := fun zs => ∃ xs ys, zs = xs ++ .symbol .colon :: ys ∧ Spells .expr xs yes ∧ Spells .expr ys no)
      fun xs ys hy hn => ⟨xs, ys, rfl, hy, hn⟩
    refine ihc.between nofun branches ?_
    rintro xs _ hc ⟨ys, zs, rfl, hy, hn⟩
    exact .conditional hc hy hn
  | signed _ ih => exact ih.mono fun _ => .signed
  | tighter _ ih => exact ih.mono fun _ => .tighter
  | binary mem _ _ ihl ihr => exact ihl.between nofun ihr fun _ _ => .binary mem
  | plus _ ih => exact ih.behind nofun fun _ => .plus
  | neg _ ih => exact ih.behind nofun fun _ => .neg
  | not _ ih => exact ih.behind nofun fun _ => .not
  | unsigned _ ih => exact ih.mono fun _ => .unsigned
  | noCall _ ih => exact ih.mono fun _ => .noCall
  | @tween _ _ _ name channel args links _ isChannel _ _ ihc iha ihl =>
    have call := ihc.append iha.parenthesized
      (R := fun zs => ∃ xs ys, zs = xs ++ parenthesized ys ∧
        Spells .primary xs (Expr.variable name) ∧ Spells .arguments ys args) (by
        rintro xs _ hc ⟨ys, rfl, ha⟩
        exact ⟨xs, ys, rfl, hc, ha⟩)
    refine call.append ihl ?_
    rintro _ zs ⟨xs, ys, rfl, hc, ha⟩ hl
    exact .tween hc isChannel ha hl
  | setActive _ _ ihc iha =>
    refine ihc.append iha.parenthesized ?_
    rintro xs _ hc ⟨ys, rfl, ha⟩
    exact .setActive hc ha
  | callback _ _ ihc iha =>
    refine ihc.append iha.parenthesized ?_
    rintro xs _ hc ⟨ys, rfl, ha⟩
    exact .callback hc ha
  | number value => exact .single nofun (.number value)
  | name name => exact .single nofun (.name name)
  | group _ ih =>
    refine ih.parenthesized.mono ?_
    rintro _ ⟨xs, rfl, h⟩
    exact .group h
  | noArguments => exact .nil .noArguments
  | someArguments _ ih => exact ih.mono fun _ => .someArguments
  | oneItem _ ih => exact ih.mono fun _ => .oneItem
  | moreItems _ _ ihe iha => exact ihe.between nofun iha fun _ _ => .moreItems
  | noLinks => exact .nil .noLinks
  | moreLinks _ _ ihl ihs => exact ihl.append ihs fun _ _ => .moreLinks
  | @namedLink _ _ make args named spells ih =>
    refine ih.parenthesized.link (.inr ⟨make, named, fun _ named' => .namedLink named' spells⟩) ?_
    rintro _ ⟨xs, rfl, h⟩
    exact .namedLink named h
  | andThen _ ih =>
    refine ih.parenthesized.link (.inl rfl) ?_
    rintro _ ⟨xs, rfl, h⟩
    exact .andThen h

theorem SpellsProgram.respells {ts : List Token} {s : Statement} (h : SpellsProgram ts s) :
    Respells (SpellsProgram · s) ts := by
  cases h with
  | single h => exact h.respells.mono fun _ => .single
  | several h several => exact h.respells.mono fun _ h => .several h several

theorem ParseMode.respells {m : ParseMode} {ts : List Token} {tree : m.Tree} (h : m.read ts = .ok tree) :
    Respells (m.read · = .ok tree) ts := by
  cases m with
  | program => exact (readProgram_eq_ok_iff.mp h).respells.mono fun _ => readProgram_eq_ok_iff.mpr
  | expression =>
    exact (readExpression_eq_ok_iff.mp h).respells.mono fun _ => readExpression_eq_ok_iff.mpr

/-! ## Links of easings -/

theorem LinkName.easing {name : String} {make : List Expr → Link} (h : LinkName name make) :
    name ∈ ["From", "FromRelative", "Delay", "Animate"] ∨
      ∃ e, Ease.named? name = some e ∧ make = .ease e := by
  cases h with
  | ease hm hf => exact .inr ⟨_, Ease.named?_join _ hm _ hf, rfl⟩
  | _ => exact .inl (by simp)

namespace Ease

variable {name : String} {e : Ease}

theorem linkName_of_named? (h : named? name = some e) : LinkName name (.ease e) := by
  obtain ⟨m, hm, f, hf, rfl, rfl⟩ := named?_eq_some_iff.mp h
  exact .ease hm hf

theorem readLink_of_named? (h : named? name = some e) (ts : List Token) :
    readLink name ts = do
      let ⟨args, rest, h⟩ ← readArguments ts
      return ⟨.ease e args, rest, h⟩ := by
  have noThen : name ≠ "Then" := by
    rintro rfl
    have unnamed : named? "Then" = none := by decide
    rw [unnamed] at h
    cases h
  rw [readLink.eq_def, if_neg noThen, linkName_iff.mpr (linkName_of_named? h)]

theorem readLinks_name (h : named? name = some e) (ts : List Token) :
    readLinks (.symbol .dot :: .identifier e.name :: ts) =
      readLinks (.symbol .dot :: .identifier name :: ts) := by
  have link (rest : List Token) : readLink e.name rest = readLink name rest := by
    rw [readLink_of_named? h, readLink_of_named? (named?_name e)]
  rw [readLinks.eq_def, readLinks.eq_def (.symbol .dot :: .identifier name :: ts)]
  rcases ts with _ | ⟨t, ts⟩
  · rfl
  · cases t with
    | symbol s => cases s <;> simp only [link]
    | _ => rfl

/-- In a text the full name of an easing can be put for a name of it. -/
theorem exists_full_text {text : String} {front back : List Token} (h : named? name = some e)
    (scans : Scans text (front ++ .identifier name :: back)) :
    ∃ before behind, text = before ++ name ++ behind ∧
      Scans (before ++ e.name ++ behind) (front ++ .identifier e.name :: back) := by
  obtain ⟨m, hm, f, hf, rfl, rfl⟩ := named?_eq_some_iff.mp h
  refine scans.respell (word_join (mem_modes m.2) (mem_families f.2)) ?_
  exact (head?_join m.2.name f.2.name).trans (head?_join m.1 f.1).symm

end Ease

/-- The names of easings are those of the catalogue, each of them in one way. The full name of an easing is
a name of it, and behind a dot it is read like every other one. In a text that parses every name behind a dot
is that of another link or of an easing, and with the full name of this easing in its place the text parses
to the same tree. -/
theorem ParseMode.easings_named :
    (∀ (name : String) (e : Ease), Ease.named? name = some e ↔
      ∃ m ∈ Ease.modes, ∃ f ∈ Ease.families, name = Ease.mark ++ m.1 ++ f.1 ∧ e = ⟨f.2, m.2⟩) ∧
    (∀ m ∈ Ease.modes, ∀ f ∈ Ease.families, ∀ m' ∈ Ease.modes, ∀ f' ∈ Ease.families,
      Ease.mark ++ m.1 ++ f.1 = Ease.mark ++ m'.1 ++ f'.1 → m = m' ∧ f = f') ∧
    (∀ (name : String) (e : Ease), Ease.named? name = some e → Ease.named? e.name = some e ∧
      ∀ ts, readLinks (.symbol .dot :: .identifier e.name :: ts) =
        readLinks (.symbol .dot :: .identifier name :: ts)) ∧
    ∀ {m : ParseMode} {text name : String} {tree : m.Tree} {front back : List Token},
      m.parse text = .ok tree → Scans text (front ++ .symbol .dot :: .identifier name :: back) →
      name ∈ ["Then", "From", "FromRelative", "Delay", "Animate"] ∨
        ∃ e, Ease.named? name = some e ∧ ∃ before behind, text = before ++ name ++ behind ∧
          Scans (before ++ e.name ++ behind)
            (front ++ .symbol .dot :: .identifier e.name :: back) ∧
          m.parse (before ++ e.name ++ behind) = .ok tree := by
  refine ⟨fun name e => Ease.named?_eq_some_iff,
    fun m hm f hf m' hm' f' hf' => Ease.join_injective hm hm' hf hf',
    fun name e h => ⟨Ease.named?_name e, Ease.readLinks_name h⟩, ?_⟩
  intro m text name tree front back parsed scans
  obtain ⟨ts, scans', read⟩ := ParseMode.parse_eq_ok_iff.mp parsed
  obtain rfl : ts = front ++ .symbol .dot :: .identifier name :: back :=
    (scans_iff.mp scans').2.symm.trans (scans_iff.mp scans).2
  obtain rfl | ⟨make, named, respelled⟩ := (ParseMode.respells read).named front name back rfl
  · exact .inl List.mem_cons_self
  · obtain other | ⟨e, easing, rfl⟩ := named.easing
    · exact .inl (List.mem_cons_of_mem _ other)
    · have split : front ++ .symbol .dot :: .identifier name :: back =
          (front ++ [.symbol .dot]) ++ .identifier name :: back := by simp
      rw [split] at scans
      obtain ⟨before, behind, text_eq, scans_full⟩ := Ease.exists_full_text easing scans
      rw [List.append_assoc] at scans_full
      have full := Ease.linkName_of_named? (Ease.named?_name e)
      exact .inr ⟨e, easing, before, behind, text_eq, scans_full,
        ParseMode.parse_eq_ok_iff.mpr ⟨_, scans_full, respelled e.name full⟩⟩

/-- Two modes fit, `OutIn` and `Out`, and the family has its short name. -/
theorem ParseMode.easings_named_short :
    let text := "X(a, t).EaseOutInQuad();"
    let tree : Statement := .expr (.tween
      ⟨.position .x, "X", [.variable "a", .variable "t"], [.ease ⟨.quadratic, .outIn⟩ []]⟩)
    ParseMode.program.parse text = .ok tree ∧
    Scans text ([.identifier "X", .symbol .lparen, .identifier "a", .symbol .comma, .identifier "t",
      .symbol .rparen] ++ .symbol .dot :: .identifier "EaseOutInQuad" ::
      [.symbol .lparen, .symbol .rparen, .symbol .semicolon]) ∧
    ∃ before behind, text = before ++ "EaseOutInQuad" ++ behind ∧
      ParseMode.program.parse (before ++ "EaseOutInQuadratic" ++ behind) = .ok tree := by
  intro text tree
  have scans : Scans text ([.identifier "X", .symbol .lparen, .identifier "a", .symbol .comma,
      .identifier "t", .symbol .rparen] ++ .symbol .dot :: .identifier "EaseOutInQuad" ::
      [.symbol .lparen, .symbol .rparen, .symbol .semicolon]) := by
    rw [Scans]
    decide +kernel
  have parsed : ParseMode.program.parse text = .ok tree :=
    Parser.run_eq_ok_iff.mpr ⟨_, scans, by with_unfolding_all rfl⟩
  refine ⟨parsed, scans, ?_⟩
  obtain other | ⟨e, easing, before, behind, split, -, full⟩ :=
    ParseMode.easings_named.2.2.2 parsed scans
  · exact absurd other (by decide)
  · have found : Ease.named? "EaseOutInQuad" = some ⟨.quadratic, .outIn⟩ := by decide
    rw [found, Option.some.injEq] at easing
    subst easing
    exact ⟨before, behind, split, full⟩

end TweenScript

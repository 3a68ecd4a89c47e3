import Polyglot.Proofs.Drafts
import Polyglot.Proofs.Readers

/-!
Tokens of written patterns. `Reads` says which tokens lie between two places of a text and which
flags hold at the second one; reading a text is a run to its end (`readTokens_eq_ok_iff`). A text
that leaves every group it opens can be put in parentheses: it is read there as it is alone, and the
flags behind the parentheses are those before them (`Closes.reads_enclosed`). The exception is a
text that ends in a comment, which takes in the closing parenthesis and all that follows it on the
line (`Closes.reads_comment`).
-/

namespace Polyglot

namespace Pattern

/-- A scope with other groups around it. -/
def Scope.under (sc : Scope) (flags : List Flags) : Scope :=
  ⟨sc.flags, sc.outer ++ flags⟩

/-- A draft and the flags go through the same groups. -/
theorem after_of_step {d d' : Draft} {sc : Scope} {t : Token} (h : d.step t = .ok d')
    (level : d.outer.length = sc.outer.length) :
    (∀ flags, (sc.under flags).after t = (sc.after t).under flags) ∧
      d'.outer.length = (sc.after t).outer.length := by
  cases t with
  | leave =>
    obtain ⟨f, outer⟩ := sc
    cases outer with
    | nil =>
      rw [Draft.step, List.eq_nil_of_length_eq_zero level] at h
      cases h
    | cons g outer =>
      obtain ⟨g', outer', same⟩ := List.exists_cons_of_length_eq_add_one level
      rw [Draft.step, same] at h
      cases h
      rw [same] at level
      exact ⟨fun flags => rfl, Nat.succ.inj level⟩
  | capture name =>
    refine ⟨fun flags => rfl, ?_⟩
    cases name with
    | none =>
      cases h
      exact congrArg Nat.succ level
    | some name =>
      rw [Draft.step] at h
      dsimp only at h
      split at h
      · cases h
      · cases h
        exact congrArg Nat.succ level
  | quantity min max greedy =>
    refine ⟨fun flags => rfl, ?_⟩
    rw [Draft.step] at h
    split at h
    · cases h
      exact level
    · cases h
  | plain changes =>
    cases h
    exact ⟨fun flags => rfl, congrArg Nat.succ level⟩
  | _ =>
    cases h
    exact ⟨fun flags => rfl, level⟩

/-- Tokens are read one after another, from one place of a text to another. -/
inductive Reads : Scope → List Char → List Token → Scope → List Char → Prop
  | stop {sc : Scope} {s : List Char} : Reads sc s [] sc s
  | token {sc sc' : Scope} {s r rest rest' : List Char} {c : Char} {t : Token} {ts : List Token}
    (next : sc.flags.skip s = c :: r) (read : readToken sc.flags c r = .ok (t, rest))
    (behind : Reads (sc.after t) rest ts sc' rest') : Reads sc s (t :: ts) sc' rest'

namespace Reads

variable {sc sc' sc'' : Scope} {s rest rest' : List Char} {ts us : List Token}

theorem trans (h : Reads sc s ts sc' rest) (h' : Reads sc' rest us sc'' rest') :
    Reads sc s (ts ++ us) sc'' rest' := by
  induction h with
  | stop => exact h'
  | token next read _ ih => exact .token next read (ih h')

/-- What is put behind a text is sealed off from its first tokens by the later ones. -/
theorem before_sealed {w : List Char} (h : Reads sc s ts sc' rest)
    (behind : Sealed sc'.flags rest w) : Sealed sc.flags s w := by
  cases h with
  | stop => exact behind
  | token next =>
    refine sealed_of_skip ?_
    rw [next]
    exact List.cons_ne_nil _ _

/-- The tokens of a text are read as before if a closing parenthesis is put behind it. -/
theorem append_close {r : List Char} (h : Reads sc s ts sc' rest)
    (behind : Sealed sc'.flags rest (')' :: r)) :
    Reads sc (s ++ ')' :: r) ts sc' (rest ++ ')' :: r) := by
  induction h with
  | stop => exact .stop
  | token next read later ih =>
    exact .token (Flags.skip_append_of_cons next)
      (readToken_append read (later.before_sealed behind)) (ih behind)

/-- The tokens of a text inside groups are those of the text alone, as long as it leaves none of
these groups. -/
theorem under {d d' : Draft} (h : Reads sc s ts sc' rest) (run : ts.foldlM Draft.step d = .ok d')
    (level : d.outer.length = sc.outer.length) (flags : List Flags) :
    Reads (sc.under flags) s ts (sc'.under flags) rest ∧ d'.outer.length = sc'.outer.length := by
  induction h generalizing d with
  | stop =>
    cases run
    exact ⟨.stop, level⟩
  | token next read _ ih =>
    rw [List.foldlM_cons] at run
    obtain ⟨e, step, run⟩ := exists_of_bind_ok run
    obtain ⟨inside, level⟩ := after_of_step step level
    obtain ⟨reads, level⟩ := ih run level
    exact ⟨.token next read (inside flags ▸ reads), level⟩

end Reads

theorem readTokens_eq_ok_iff {fuel : Nat} {sc : Scope} {s rest : List Char}
    {ts : List Token} {f : Flags} : readTokens fuel sc s = .ok (ts, f, rest) ↔
      ts.length ≤ fuel ∧ f.skip rest = [] ∧ ∃ sc', sc'.flags = f ∧ Reads sc s ts sc' rest := by
  induction fuel generalizing sc s ts with
  | zero =>
    unfold readTokens
    cases skip : sc.flags.skip s with
    | nil =>
      constructor
      · intro h
        cases h
        exact ⟨Nat.le_refl _, skip, sc, rfl, .stop⟩
      · rintro ⟨short, -, sc', rfl, reads⟩
        obtain rfl := List.eq_nil_of_length_eq_zero (Nat.le_zero.mp short)
        cases reads
        rfl
    | cons c r =>
      constructor
      · intro h
        cases h
      · rintro ⟨short, done, sc', rfl, reads⟩
        obtain rfl := List.eq_nil_of_length_eq_zero (Nat.le_zero.mp short)
        cases reads
        rw [done] at skip
        cases skip
  | succ fuel ih =>
    unfold readTokens
    cases skip : sc.flags.skip s with
    | nil =>
      constructor
      · intro h
        cases h
        exact ⟨Nat.zero_le _, skip, sc, rfl, .stop⟩
      · rintro ⟨-, -, sc', rfl, reads⟩
        cases reads with
        | stop => rfl
        | token next =>
          rw [skip] at next
          cases next
    | cons c r =>
      constructor
      · intro h
        obtain ⟨⟨t, after⟩, read, h⟩ := exists_of_bind_ok h
        obtain ⟨⟨us, behind⟩, more, h⟩ := exists_of_bind_ok h
        cases h
        obtain ⟨short, done, sc', flags, reads⟩ := ih.mp more
        exact ⟨Nat.succ_le_succ short, done, sc', flags, .token skip read reads⟩
      · rintro ⟨short, done, sc', flags, reads⟩
        cases reads with
        | stop =>
          rw [flags, done] at skip
          cases skip
        | token next read behind =>
          rw [skip] at next
          obtain ⟨rfl, rfl⟩ := List.cons.inj next
          have more := ih.mpr ⟨Nat.le_of_succ_le_succ short, done, sc', flags, behind⟩
          exact bind_eq_ok read (bind_eq_ok more rfl)

theorem tokens_eq_ok {s rest : List Char} {ts : List Token} {sc : Scope} (h : Reads {} s ts sc rest)
    (done : sc.flags.skip rest = []) (short : ts.length ≤ s.length) : tokens s = .ok ts := by
  rw [tokens, readTokens_eq_ok_iff.mpr ⟨short, done, sc, rfl, h⟩]
  rfl

/-! ### Drafts of texts -/

/-- The tokens of a text, and none if it cannot be read. -/
def tokensOf (s : List Char) : List Token :=
  (tokens s).toOption.getD []

/-- What a text is drafted to. -/
def draft (s : List Char) : Except Flaw Draft := do
  (← tokens s).foldlM Draft.step {}

/-- The draft of a text, and an empty one if there is none. -/
def draftOf (s : List Char) : Draft :=
  (draft s).toOption.getD {}

/-- The names of the groups that a written pattern has. -/
def groupNames (s : List Char) : List (List Char) :=
  (draftOf s).keys

/-- How deep a written pattern is nested. -/
def levels (s : List Char) : Nat :=
  (draftOf s).body.depth

/-- A text of tokens that leave every group they open. -/
structure Closes (s : List Char) : Prop where
  tokens : tokens s = .ok (tokensOf s)
  drafted : (tokensOf s).foldlM Draft.step {} = .ok (draftOf s)
  closed : (draftOf s).outer = []

theorem draft_eq_ok {s : List Char} {d : Draft} (h : draft s = .ok d) :
    tokens s = .ok (tokensOf s) ∧ (tokensOf s).foldlM Draft.step {} = .ok d ∧ draftOf s = d := by
  have drafted : draftOf s = d := by rw [draftOf, h, Except.toOption, Option.getD]
  obtain ⟨ts, hts, h⟩ := exists_of_bind_ok h
  have read : tokensOf s = ts := by rw [tokensOf, hts, Except.toOption, Option.getD]
  exact ⟨read ▸ hts, read ▸ h, drafted⟩

theorem Closes.draft {s : List Char} (h : Closes s) : Pattern.draft s = .ok (draftOf s) := by
  rw [Pattern.draft, h.tokens]
  exact h.drafted

theorem ofSource_eq_bind (s : List Char) :
    ofSource s = draft s >>= fun d => d.finish >>= fun f => pure (f.toPattern, d.names) := by
  rw [ofSource, draft]
  cases tokens s <;> rfl

theorem Draft.finish_eq_ok {d : Draft} {f : Form} :
    d.finish = .ok f ↔
      d.outer = [] ∧ d.body.depth ≤ Draft.maxDepth ∧ d.body.form.fits = true ∧ f = d.body.form := by
  unfold Draft.finish
  constructor
  · intro h
    split at h
    · next closed =>
      dsimp only at h
      split at h
      · cases h
      · next shallow =>
        split at h
        · next fits =>
          cases h
          exact ⟨List.isEmpty_iff.mp closed, Nat.le_of_not_lt shallow, fits, rfl⟩
        · cases h
    · cases h
  · rintro ⟨closed, shallow, fits, rfl⟩
    rw [if_pos (List.isEmpty_iff.mpr closed)]
    dsimp only
    rw [if_neg (Nat.not_lt.mpr shallow), if_pos fits]

theorem Draft.finish_eq_tooLarge {d : Draft} (closed : d.outer = [])
    (shallow : d.body.depth ≤ Draft.maxDepth) (large : ¬d.body.form.fits = true) :
    d.finish = .error .tooLarge := by
  unfold Draft.finish
  rw [if_pos (List.isEmpty_iff.mpr closed)]
  dsimp only
  rw [if_neg (Nat.not_lt.mpr shallow), if_neg large]

/-- What a text is a pattern by. -/
theorem ofSource_eq_ok_iff {s : List Char} {p : Pattern} {names : List (List Char × Nat)} :
    ofSource s = .ok (p, names) ↔
      Closes s ∧ levels s ≤ Draft.maxDepth ∧ (draftOf s).body.form.fits = true ∧
        p = (draftOf s).body.form.toPattern ∧ names = (draftOf s).names := by
  rw [ofSource_eq_bind]
  constructor
  · intro h
    obtain ⟨d, hd, h⟩ := exists_of_bind_ok h
    obtain ⟨f, hf, h⟩ := exists_of_bind_ok h
    cases h
    obtain ⟨read, drafted, rfl⟩ := draft_eq_ok hd
    obtain ⟨closed, shallow, fits, rfl⟩ := Draft.finish_eq_ok.mp hf
    exact ⟨⟨read, drafted, closed⟩, shallow, fits, rfl, rfl⟩
  · rintro ⟨closes, shallow, fits, rfl, rfl⟩
    rw [closes.draft]
    change ((draftOf s).finish >>= fun f => pure (f.toPattern, (draftOf s).names)) = _
    rw [Draft.finish_eq_ok.mpr ⟨closes.closed, shallow, fits, rfl⟩]
    rfl

/-! ### Texts in parentheses -/

section Enclosed

variable {s : List Char}

/-- How a text that leaves all its groups is read alone. -/
theorem Closes.reads (h : Closes s) :
    ∃ f rest, Reads {} s (tokensOf s) ⟨f, []⟩ rest ∧ f.skip rest = [] ∧
      (tokensOf s).length ≤ s.length ∧
      endsInComment s = (f.verbose && opensComment false rest) := by
  obtain ⟨⟨ts, f, rest⟩, read, same⟩ := exists_of_map_ok h.tokens
  obtain ⟨short, done, ⟨f', outer⟩, rfl, reads⟩ := readTokens_eq_ok_iff.mp read
  dsimp only at same
  subst same
  obtain ⟨-, level⟩ := reads.under h.drafted rfl []
  rw [h.closed] at level
  obtain rfl := List.eq_nil_of_length_eq_zero level.symm
  refine ⟨f', rest, reads, done, short, ?_⟩
  rw [endsInComment, read]

theorem Closes.length_tokensOf_le (h : Closes s) : (tokensOf s).length ≤ s.length := by
  obtain ⟨-, -, -, -, short, -⟩ := h.reads
  exact short

/-- A text is read inside a group as it is alone, and the group is left behind it. -/
theorem Closes.reads_enclosed (h : Closes s) (finished : endsInComment s = false) (f : Flags)
    (outer : List Flags) (r : List Char) :
    Reads ⟨{}, f :: outer⟩ (s ++ ')' :: r) (tokensOf s ++ [.leave]) ⟨f, outer⟩ r := by
  obtain ⟨f', rest, reads, done, -, comment⟩ := h.reads
  have close : f'.skip (rest ++ ')' :: r) = ')' :: r := by
    rw [Flags.skip_append_of_finished done (comment.symm.trans finished), Flags.skip_close]
  have behind : Sealed f' rest (')' :: r) := by
    intro _
    rw [close, List.head?_cons]
    decide
  obtain ⟨inside, -⟩ := reads.under h.drafted rfl (f :: outer)
  exact (inside.append_close behind).trans (.token close rfl .stop)

/-- Behind a text that ends in a comment, the rest of the line stands for nothing. -/
theorem Closes.reads_comment (h : Closes s) (comment : endsInComment s = true) (outer : List Flags)
    {r : List Char} (unbroken : '\n' ∉ r) :
    ∃ f rest, Reads ⟨{}, outer⟩ (s ++ ')' :: r) (tokensOf s) ⟨f, outer⟩ rest ∧
      f.skip rest = [] := by
  obtain ⟨f, rest, reads, -, -, ends⟩ := h.reads
  have hidden : f.skip (rest ++ ')' :: r) = [] := by
    refine Flags.skip_append_of_comment (ends.symm.trans comment) ?_
    rw [List.mem_cons, not_or]
    exact ⟨by decide, unbroken⟩
  have behind : Sealed f rest (')' :: r) := by
    intro _
    rw [hidden]
    decide
  obtain ⟨inside, -⟩ := reads.under h.drafted rfl outer
  exact ⟨f, rest ++ ')' :: r, inside.append_close behind, hidden⟩

end Enclosed

end Pattern

end Polyglot

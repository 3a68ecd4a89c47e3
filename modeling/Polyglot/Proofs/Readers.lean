import Mathlib.Data.List.TakeDrop
import Polyglot.Pattern.Source
import Polyglot.Proofs.Results

/-!
Written patterns with more text behind them. Every reader stops by itself, so what it has read of a
text stays as it is if a closing parenthesis follows the text (`readToken_append`). Two tokens look
ahead for a question mark, past blanks and comments: a comment at the end of the text takes in the
parenthesis, and the mark may then come from behind it (`Sealed`).
-/

namespace Polyglot

namespace Pattern

section Lists

variable {p : Char → Bool} {s w : List Char}

theorem takeWhile_append_of_lt (h : (s.takeWhile p).length < s.length) :
    (s ++ w).takeWhile p = s.takeWhile p := by
  rw [List.takeWhile_append, if_neg (Nat.ne_of_lt h)]

theorem drop_takeWhile_append (p : Char → Bool) (s w : List Char) :
    (s ++ w).drop (s.takeWhile p).length = s.drop (s.takeWhile p).length ++ w :=
  List.drop_append_of_le_length ( List.takeWhile_prefix p).length_le

theorem dropWhile_append_of_ne_nil (h : s.dropWhile p ≠ []) :
    (s ++ w).dropWhile p = s.dropWhile p ++ w := by
  rw [List.dropWhile_append, if_neg (by simpa using h)]

/-- A character before a parenthesis is one of the text. -/
theorem exists_of_append_close {a : Char} {r t : List Char} (other : a ≠ ')')
    (h : s ++ ')' :: r = a :: t) : ∃ s', s = a :: s' := by
  cases s with
  | nil => exact absurd (List.cons.inj h).1.symm other
  | cons c s =>
    obtain ⟨rfl, -⟩ := List.cons.inj h
    exact ⟨s, rfl⟩

theorem exists_pair_of_append_close {a b : Char} {r t : List Char} (first : a ≠ ')')
    (second : b ≠ ')') (h : s ++ ')' :: r = a :: b :: t) : ∃ s', s = a :: b :: s' := by
  obtain ⟨s', rfl⟩ := exists_of_append_close first h
  obtain ⟨s'', rfl⟩ := exists_of_append_close second (List.cons.inj h).2
  exact ⟨s'', rfl⟩

end Lists

/-! ### Blanks and comments -/

section Blanks

variable {s w : List Char}

theorem skipBlanks_append {comment : Bool} (h : skipBlanks comment s ≠ []) :
    skipBlanks comment (s ++ w) = skipBlanks comment s ++ w := by
  induction s generalizing comment with
  | nil => exact absurd (by cases comment <;> rfl) h
  | cons c s ih =>
    cases comment with
    | true => exact ih h
    | false =>
      simp only [List.cons_append, skipBlanks] at h ⊢
      split
      · next blank =>
        rw [if_pos blank] at h
        exact ih h
      · next other =>
        rw [if_neg other] at h
        split
        · next hash =>
          rw [if_pos hash] at h
          exact ih h
        · rfl

theorem skipBlanks_append_of_finished {comment : Bool} (skipped : skipBlanks comment s = [])
    (finished : opensComment comment s = false) :
    skipBlanks comment (s ++ w) = skipBlanks false w := by
  induction s generalizing comment with
  | nil =>
    cases comment with
    | true => cases finished
    | false => rfl
  | cons c s ih =>
    cases comment with
    | true => exact ih skipped finished
    | false =>
      simp only [List.cons_append, skipBlanks, opensComment] at skipped finished ⊢
      split
      · next blank =>
        rw [if_pos blank] at skipped finished
        exact ih skipped finished
      · next other =>
        rw [if_neg other] at skipped finished
        split
        · next hash =>
          rw [if_pos hash] at skipped
          subst hash
          exact ih skipped finished
        · next hash =>
          rw [if_neg hash] at skipped
          cases skipped

/-- Behind a comment that is not finished, what is put behind a text belongs to the comment. -/
theorem skipBlanks_append_of_comment {comment : Bool} (opened : opensComment comment s = true) :
    skipBlanks comment (s ++ w) = skipBlanks true w := by
  induction s generalizing comment with
  | nil =>
    cases comment with
    | true => rfl
    | false => cases opened
  | cons c s ih =>
    cases comment with
    | true => exact ih opened
    | false =>
      simp only [List.cons_append, skipBlanks, opensComment] at opened ⊢
      split
      · next blank =>
        rw [if_pos blank] at opened
        exact ih opened
      · next other =>
        rw [if_neg other, Bool.and_eq_true, beq_iff_eq] at opened
        rw [if_pos opened.1]
        exact ih opened.2

theorem skipBlanks_comment_eq_nil (h : '\n' ∉ w) : skipBlanks true w = [] := by
  induction w with
  | nil => rfl
  | cons c w ih =>
    rw [List.mem_cons, not_or] at h
    have same : (c != '\n') = true := by simpa using Ne.symm h.1
    rw [skipBlanks, same]
    exact ih h.2

theorem skipBlanks_dropWhile (s : List Char) :
    skipBlanks false (s.dropWhile Text.isBlank) = skipBlanks false s := by
  induction s with
  | nil => rfl
  | cons c s ih =>
    by_cases blank : Text.isBlank c = true
    · rw [List.dropWhile_cons_of_pos blank, ih, skipBlanks, if_pos blank]
    · rw [List.dropWhile_cons_of_neg blank]

theorem skipBlanks_eq_nil (h : s.dropWhile Text.isBlank = []) (comment : Bool) :
    skipBlanks comment s = [] := by
  induction s generalizing comment with
  | nil => cases comment <;> rfl
  | cons c s ih =>
    have blank : Text.isBlank c = true := by
      by_contra other
      rw [List.dropWhile_cons_of_neg other] at h
      cases h
    rw [List.dropWhile_cons_of_pos blank] at h
    cases comment with
    | true => exact ih h _
    | false =>
      rw [skipBlanks, if_pos blank]
      exact ih h _

end Blanks

namespace Flags

variable {f : Flags} {s w : List Char}

theorem skip_append (h : f.skip s ≠ []) : f.skip (s ++ w) = f.skip s ++ w := by
  rw [skip] at h
  rw [skip, skip]
  split
  · next verbose =>
    rw [if_pos verbose] at h
    exact skipBlanks_append h
  · rfl

theorem skip_append_of_cons {c : Char} {r : List Char} (h : f.skip s = c :: r) :
    f.skip (s ++ w) = c :: (r ++ w) := by
  rw [skip_append (by rw [h]; exact List.cons_ne_nil c r), h]
  rfl

theorem skip_nil (f : Flags) : f.skip [] = [] := by
  rw [skip]
  split <;> rfl

theorem ne_nil_of_skip (h : f.skip s ≠ []) : s ≠ [] := by
  rintro rfl
  exact h f.skip_nil

/-- Behind blanks and finished comments, what is put behind a text comes next. -/
theorem skip_append_of_finished (done : f.skip s = [])
    (finished : (f.verbose && opensComment false s) = false) : f.skip (s ++ w) = f.skip w := by
  rw [skip] at done
  rw [skip, skip]
  split
  · next verbose =>
    rw [if_pos verbose] at done
    rw [verbose, Bool.true_and] at finished
    exact skipBlanks_append_of_finished done finished
  · next terse =>
    rw [if_neg terse] at done
    rw [done, List.nil_append]

theorem skip_append_of_comment (opened : (f.verbose && opensComment false s) = true)
    (unbroken : '\n' ∉ w) : f.skip (s ++ w) = [] := by
  rw [Bool.and_eq_true] at opened
  rw [skip, if_pos opened.1, skipBlanks_append_of_comment opened.2]
  exact skipBlanks_comment_eq_nil unbroken

theorem skip_close (f : Flags) (r : List Char) : f.skip (')' :: r) = ')' :: r := by
  rw [skip]
  split <;> rfl

theorem peek_append {c : Char} (h : f.peek s = some c) : f.peek (s ++ w) = some c := by
  rw [peek] at h ⊢
  split
  · next verbose =>
    rw [if_pos verbose] at h
    have full : s.dropWhile Text.isBlank ≠ [] := by
      intro empty
      rw [empty] at h
      cases h
    obtain ⟨d, r, same⟩ := List.exists_cons_of_ne_nil full
    rw [dropWhile_append_of_ne_nil full, same, List.cons_append]
    rw [same] at h
    split
    · next r' begins =>
      obtain ⟨rfl, rfl⟩ := List.cons.inj begins
      have inside : r.dropWhile Text.isBlank ≠ [] := by
        intro empty
        simp only [empty] at h
        cases h
      rw [dropWhile_append_of_ne_nil inside, List.head?_append_of_ne_nil _ inside]
      exact h
    · next other =>
      split at h
      · next r' begins =>
        obtain ⟨rfl, -⟩ := List.cons.inj begins
        exact absurd rfl (other _)
      · exact h
  · next terse =>
    rw [if_neg terse] at h
    rw [List.head?_append, h]
    rfl

theorem exists_peek (h : f.skip s ≠ []) : ∃ c, f.peek s = some c := by
  rw [skip] at h
  rw [← Option.isSome_iff_exists, peek]
  split
  · next verbose =>
    rw [if_pos verbose, ← skipBlanks_dropWhile] at h
    split
    · next r begins =>
      rw [begins] at h
      refine List.isSome_head?.mpr fun empty => h (skipBlanks_eq_nil empty true)
    · refine List.isSome_head?.mpr fun empty => h ?_
      rw [empty]
      rfl
  · next terse =>
    rw [if_neg terse] at h
    exact List.isSome_head?.mpr h

end Flags

/-! ### Escapes -/

section Escapes

variable {f : Flags} {s rest w : List Char}

theorem readBraced_append {verbose comment : Bool} {inside : List Char}
    (h : readBraced verbose comment s = .ok (inside, rest)) :
    readBraced verbose comment (s ++ w) = .ok (inside, rest ++ w) := by
  induction s generalizing comment inside with
  | nil => cases comment <;> cases h
  | cons c s ih =>
    cases comment with
    | true => exact ih h
    | false =>
      simp only [List.cons_append, readBraced] at h ⊢
      split
      · next blank =>
        rw [if_pos blank] at h
        exact ih h
      · next other =>
        rw [if_neg other] at h
        split
        · next hash =>
          rw [if_pos hash] at h
          exact ih h
        · next other =>
          rw [if_neg other] at h
          split
          · next close =>
            rw [if_pos close] at h
            cases h
            rfl
          · next other =>
            rw [if_neg other] at h
            obtain ⟨⟨inside, rest⟩, read, same⟩ := exists_of_map_ok h
            cases same
            rw [ih read]
            rfl

theorem readDigits_append {width : Nat} {digits : List Char}
    (h : readDigits f width s = .ok (digits, rest)) :
    readDigits f width (s ++ w) = .ok (digits, rest ++ w) := by
  induction width generalizing s digits with
  | zero =>
    cases h
    rfl
  | succ width ih =>
    rw [readDigits] at h ⊢
    cases skip : f.skip s with
    | nil =>
      rw [skip] at h
      cases h
    | cons c r =>
      rw [skip] at h
      rw [Flags.skip_append_of_cons skip]
      dsimp only at h ⊢
      obtain ⟨⟨digits, rest⟩, read, same⟩ := exists_of_map_ok h
      cases same
      rw [ih read]
      rfl

theorem readHex_append {width : Nat} {a : Atom} (h : readHex f width s = .ok (a, rest)) :
    readHex f width (s ++ w) = .ok (a, rest ++ w) := by
  unfold readHex at h ⊢
  cases skip : f.skip s with
  | nil =>
    rw [skip] at h
    obtain ⟨⟨digits, tail⟩, read, h⟩ := exists_of_bind_ok h
    have none : digits = [] := by
      cases width with
      | zero =>
        cases read
        rfl
      | succ width =>
        rw [readDigits, Flags.skip_nil] at read
        cases read
    subst none
    cases h
  | cons c r =>
    rw [Flags.skip_append_of_cons skip]
    rw [skip] at h
    split at h
    · next after same =>
      obtain ⟨rfl, rfl⟩ := List.cons.inj same
      obtain ⟨⟨digits, tail⟩, read, h⟩ := exists_of_bind_ok h
      obtain ⟨c, value, h⟩ := exists_of_bind_ok h
      cases h
      exact bind_eq_ok (readBraced_append read) (bind_eq_ok value rfl)
    · next other =>
      obtain ⟨⟨digits, tail⟩, read, h⟩ := exists_of_bind_ok h
      split
      · next same =>
        obtain ⟨rfl, -⟩ := List.cons.inj same
        exact absurd rfl (other _)
      · obtain ⟨c, value, h⟩ := exists_of_bind_ok h
        refine bind_eq_ok (readDigits_append read) (bind_eq_ok value ?_)
        split at h
        · cases h
        · next wide =>
          cases h
          exact if_neg wide

theorem readPropertyName_append {name : List Char} (h : readPropertyName f s = .ok (name, rest)) :
    readPropertyName f (s ++ w) = .ok (name, rest ++ w) := by
  unfold readPropertyName at h ⊢
  cases skip : f.skip s with
  | nil =>
    rw [skip] at h
    cases h
  | cons c r =>
    rw [Flags.skip_append_of_cons skip]
    rw [skip] at h
    split at h
    · next same => cases same
    · next after same =>
      obtain ⟨rfl, rfl⟩ := List.cons.inj same
      exact readBraced_append h
    · cases h
    · next brace backslash same =>
      obtain ⟨rfl, rfl⟩ := List.cons.inj same
      cases h
      split
      · next same => cases same
      · next same =>
        obtain ⟨rfl, -⟩ := List.cons.inj same
        exact absurd rfl brace
      · next same =>
        obtain ⟨rfl, -⟩ := List.cons.inj same
        exact absurd rfl backslash
      · next same =>
        obtain ⟨rfl, rfl⟩ := List.cons.inj same
        rfl

theorem readProperty_append {negated : Bool} {a : Atom}
    (h : readProperty f negated s = .ok (a, rest)) :
    readProperty f negated (s ++ w) = .ok (a, rest ++ w) := by
  obtain ⟨⟨name, tail⟩, read, h⟩ := exists_of_bind_ok h
  refine bind_eq_ok (readPropertyName_append read) ?_
  dsimp only at h ⊢
  split at h
  · cases h
  · split at h
    · next unicode =>
      rw [if_pos unicode]
      obtain ⟨set, made, h⟩ := exists_of_bind_ok h
      cases h
      exact bind_eq_ok made rfl
    · cases h

/-- A brace at the end of the text would belong to the test. -/
theorem readWordEdge_append {a : Atom} (h : readWordEdge f s = .ok (a, rest))
    (behind : rest = [] → w.head? ≠ some '{') : readWordEdge f (s ++ w) = .ok (a, rest ++ w) := by
  unfold readWordEdge at h
  split at h
  · next after =>
    split at h
    · cases h
    · next c r skip =>
      rw [List.cons_append, readWordEdge, Flags.skip_append_of_cons skip]
      dsimp only
      split at h
      · next named =>
        rw [if_pos named]
        obtain ⟨⟨name, tail⟩, read, h⟩ := exists_of_bind_ok h
        refine bind_eq_ok (readBraced_append read) ?_
        dsimp only at h ⊢
        split at h
        · cases h
          rfl
        · cases h
      · next other =>
        cases h
        rw [if_neg other]
        rfl
  · next outside =>
    cases h
    rw [readWordEdge]
    intro after same
    cases s with
    | nil => exact behind rfl (by rw [← List.nil_append w, same]; rfl)
    | cons c s =>
      obtain ⟨rfl, -⟩ := List.cons.inj same
      exact outside s rfl

theorem readEscape_append {a : Atom} (h : readEscape f s = .ok (a, rest))
    (behind : rest = [] → w.head? ≠ some '{') : readEscape f (s ++ w) = .ok (a, rest ++ w) := by
  cases s with
  | nil => cases h
  | cons c s =>
    rw [List.cons_append]
    unfold readEscape at h ⊢
    dsimp only at h ⊢
    split at h
    case h_7 => exact readProperty_append h
    case h_8 => exact readProperty_append h
    case h_9 => exact readHex_append h
    case h_10 => exact readHex_append h
    case h_11 => exact readHex_append h
    case h_20 => exact readWordEdge_append h behind
    case h_24 =>
      split at h
      · next escapable =>
        cases h
        rw [if_pos escapable]
      · cases h
    -- the escapes of one letter
    all_goals first
      | cases h
        rfl
      | obtain ⟨a, made, same⟩ := exists_of_map_ok h
        cases same
        rw [made]
        rfl

end Escapes

/-! ### Classes in brackets -/

section Classes

variable {f : Flags} {s rest w : List Char}

theorem not_mem_of_asciiClass? {name : List Char} {set : CharSet}
    (h : asciiClass? name = some set) : ')' ∉ name := by
  unfold asciiClass? at h
  dsimp only at h
  split at h
  case h_15 => cases h
  all_goals
    next known =>
    rw [← String.toList_ofList (l := name), known]
    decide

/-- The end of a named class, behind its name. -/
def closeNamed? : List Char → Option (List Char)
  | ':' :: ']' :: after => some after
  | _ => none

theorem closeNamed?_append {s : List Char} (full : s ≠ []) (r : List Char) :
    closeNamed? (s ++ ')' :: r) = (closeNamed? s).map (· ++ ')' :: r) := by
  cases s with
  | nil => exact absurd rfl full
  | cons c s =>
    cases s with
    | nil =>
      rw [closeNamed?, closeNamed?]
      · rfl
      · simp
      · simp
    | cons d s =>
      by_cases ends : c = ':' ∧ d = ']'
      · obtain ⟨rfl, rfl⟩ := ends
        rfl
      · rw [List.cons_append, List.cons_append, closeNamed?, closeNamed?]
        · rfl
        · simp_all
        · simp_all

/-- A named class behind its colon. -/
def readNamed (negated : Bool) (body : List Char) : Option (Bool × CharSet × List Char) := do
  let set ← asciiClass? (body.takeWhile (· != ':'))
  let after ← closeNamed? (body.drop (body.takeWhile (· != ':')).length)
  return (negated, set, after)

theorem readNamed_append (negated : Bool) (body r : List Char) :
    readNamed negated (body ++ ')' :: r) =
      (readNamed negated body).map fun found => (found.1, found.2.1, found.2.2 ++ ')' :: r) := by
  by_cases short : (body.takeWhile (· != ':')).length < body.length
  · have full : body.drop (body.takeWhile (· != ':')).length ≠ [] := by
      rw [ne_eq, List.drop_eq_nil_iff]
      omega
    simp only [readNamed, takeWhile_append_of_lt short, drop_takeWhile_append,
      closeNamed?_append full]
    cases asciiClass? (body.takeWhile (· != ':')) with
    | none => rfl
    | some set => cases closeNamed? (body.drop (body.takeWhile (· != ':')).length) <;> rfl
  · have whole : body.takeWhile (· != ':') = body :=
      ( List.takeWhile_prefix _).eq_of_length_le (Nat.le_of_not_lt short)
    have unknown : asciiClass? ((body ++ ')' :: r).takeWhile (· != ':')) = none := by
      rw [List.takeWhile_append, whole, if_pos rfl]
      refine Option.eq_none_iff_forall_ne_some.mpr fun set known => not_mem_of_asciiClass? known ?_
      simp
    simp only [readNamed, unknown, whole, List.drop_length]
    cases asciiClass? body <;> rfl

theorem readAsciiClass?_colon (s : List Char) :
    readAsciiClass? (':' :: s) =
      readNamed (s.head? = some '^') (if s.head? = some '^' then s.tail else s) := by
  simp only [readAsciiClass?, readNamed]
  generalize (if s.head? = some '^' then s.tail else s) = body
  split
  · next after set ending known =>
    rw [known, ending]
    simp [closeNamed?]
  · next other =>
    symm
    refine Option.eq_none_iff_forall_ne_some.mpr fun found h => ?_
    obtain ⟨set, known, h⟩ := Option.bind_eq_some_iff.mp h
    obtain ⟨after, closed, -⟩ := Option.bind_eq_some_iff.mp h
    unfold closeNamed? at closed
    split at closed
    · next after ending => exact other after set ending known
    · cases closed

theorem readAsciiClass?_append (s r : List Char) :
    readAsciiClass? (s ++ ')' :: r) =
      (readAsciiClass? s).map fun found => (found.1, found.2.1, found.2.2 ++ ')' :: r) := by
  cases s with
  | nil => rfl
  | cons c s =>
    by_cases colon : c = ':'
    · subst colon
      rw [List.cons_append, readAsciiClass?_colon, readAsciiClass?_colon, ← readNamed_append]
      cases s with
      | nil => rfl
      | cons d s =>
        by_cases caret : d = '^'
        · subst caret
          rfl
        · have other : ¬some d = some '^' := fun same => caret (Option.some.inj same)
          rw [List.cons_append, List.head?_cons, List.head?_cons, if_neg other, if_neg other,
            List.cons_append]
    · have other (s : List Char) : readAsciiClass? (c :: s) = none := by
        unfold readAsciiClass?
        split
        · next same => exact absurd (List.cons.inj same).1 colon
        · rfl
      rw [List.cons_append, other, other]
      rfl

theorem readClassAtom_append {a : Atom} (h : readClassAtom f s = .ok (a, rest))
    (behind : rest = [] → w.head? ≠ some '{') : readClassAtom f (s ++ w) = .ok (a, rest ++ w) := by
  unfold readClassAtom at h
  split at h
  · cases h
  · exact readEscape_append h behind
  · next c s plain =>
    cases h
    rw [List.cons_append, readClassAtom]
    exact plain

theorem readClassItem_append {set : CharSet} (h : readClassItem f s = .ok (set, rest))
    (full : rest ≠ []) : readClassItem f (s ++ w) = .ok (set, rest ++ w) := by
  obtain ⟨⟨first, tail⟩, hfirst, h⟩ := exists_of_bind_ok h
  dsimp only at h
  cases skip : f.skip tail with
  | nil =>
    rw [skip] at h
    cases h
  | cons c r =>
    have more : tail ≠ [] := Flags.ne_nil_of_skip (by rw [skip]; exact List.cons_ne_nil c r)
    refine bind_eq_ok (readClassAtom_append hfirst fun none => absurd none more) ?_
    dsimp only
    rw [Flags.skip_append_of_cons skip]
    rw [skip] at h
    split at h
    · next same => cases same
    · next after same =>
      obtain ⟨rfl, rfl⟩ := List.cons.inj same
      split at h
      · next last =>
        obtain ⟨item, made, h⟩ := exists_of_bind_ok h
        cases h
        have last' : (f.peek (r ++ w) = some ']' || f.peek (r ++ w) = some '-') = true := by
          simp only [Bool.or_eq_true, decide_eq_true_eq] at last ⊢
          exact last.imp Flags.peek_append Flags.peek_append
        exact (if_pos last').trans (bind_eq_ok made rfl)
      · next inside =>
        obtain ⟨⟨last, tail⟩, hlast, h⟩ := exists_of_bind_ok h
        obtain ⟨range, made, h⟩ := exists_of_bind_ok h
        cases h
        have left : f.skip r ≠ [] := by
          intro none
          rw [none] at hlast
          cases hlast
        obtain ⟨d, seen⟩ := Flags.exists_peek left
        rw [seen, ← Flags.peek_append (w := w) seen] at inside
        refine (if_neg inside).trans (bind_eq_ok (a := (last, tail ++ w)) ?_ (bind_eq_ok made rfl))
        rw [Flags.skip_append left]
        exact readClassAtom_append hlast fun none => absurd none full
    · next hyphen =>
      obtain ⟨item, made, h⟩ := exists_of_bind_ok h
      cases h
      split
      · next same => cases same
      · next same =>
        obtain ⟨rfl, -⟩ := List.cons.inj same
        exact absurd rfl (hyphen _)
      · exact bind_eq_ok made rfl

theorem readHyphens_append {verbose comment : Bool}
    (full : (readHyphens verbose comment s).2 ≠ []) : readHyphens verbose comment (s ++ w) =
      ((readHyphens verbose comment s).1, (readHyphens verbose comment s).2 ++ w) := by
  induction s generalizing comment with
  | nil => exact absurd (by cases comment <;> rfl) full
  | cons c s ih =>
    cases comment with
    | true => exact ih full
    | false =>
      simp only [List.cons_append, readHyphens] at full ⊢
      split
      · next blank =>
        rw [if_pos blank] at full
        exact ih full
      · next other =>
        rw [if_neg other] at full
        split
        · next hash =>
          rw [if_pos hash] at full
          exact ih full
        · next other =>
          rw [if_neg other] at full
          split
          · next hyphen =>
            rw [if_pos hyphen] at full
            rw [ih full]
          · rfl

theorem startItems_append {hyphens : Nat} (full : (startItems hyphens s).2 ≠ []) :
    startItems hyphens (s ++ w) = ((startItems hyphens s).1, (startItems hyphens s).2 ++ w) := by
  cases hyphens with
  | zero =>
    cases s with
    | nil => exact absurd rfl full
    | cons c s =>
      by_cases bracket : c = ']'
      · subst bracket
        rfl
      · rw [List.cons_append, startItems, startItems]
        all_goals simp [bracket]
  | succ hyphens => rfl

theorem readClassStart_append (full : (readClassStart f s).2.2 ≠ []) :
    readClassStart f (s ++ w) =
      ((readClassStart f s).1, (readClassStart f s).2.1, (readClassStart f s).2.2 ++ w) := by
  unfold readClassStart at full ⊢
  dsimp only at full ⊢
  cases skip : f.skip s with
  | nil =>
    rw [skip] at full
    exact absurd rfl full
  | cons c r =>
    rw [Flags.skip_append_of_cons skip, List.head?_cons, List.head?_cons]
    rw [skip, List.head?_cons] at full
    have body : (if some c = some '^' then (c :: (r ++ w)).tail else c :: (r ++ w)) =
        (if some c = some '^' then (c :: r).tail else c :: r) ++ w := by
      by_cases caret : some c = some '^'
      · rw [if_pos caret, if_pos caret]
        rfl
      · rw [if_neg caret, if_neg caret]
        rfl
    rw [body]
    generalize (if some c = some '^' then (c :: r).tail else c :: r) = b at full ⊢
    have more : (readHyphens f.verbose false b).2 ≠ [] := by
      intro none
      rw [none] at full
      exact full (by cases (readHyphens f.verbose false b).1 <;> rfl)
    rw [readHyphens_append more, startItems_append full]

/-- A class goes on at least to its closing bracket. -/
theorem ne_nil_of_readClassRest {fuel : Nat} {outer : OpenClasses} {negated : Bool}
    {before : Option Operand} {items : ClassItems} {found : CharSet × Nat × List Char}
    (h : readClassRest f fuel outer negated before items s = .ok found) : s ≠ [] := by
  rintro rfl
  cases fuel with
  | zero => cases h
  | succ fuel =>
    rw [readClassRest, Flags.skip_nil] at h
    cases h

theorem readClassRest_named {fuel : Nat} {outer : OpenClasses} {negated inverted : Bool}
    {before : Option Operand} {items : ClassItems} {inner set : CharSet} {tail after : List Char}
    (skip : f.skip s = '[' :: tail) (named : readAsciiClass? tail = some (inverted, inner, after))
    (made : f.classOf inverted inner = .ok set) :
    readClassRest f (fuel + 1) outer negated before items s =
      readClassRest f fuel outer negated before (items.add set) after := by
  simp only [readClassRest, skip, named, made]
  rfl

theorem readClassRest_nested {fuel : Nat} {outer : OpenClasses} {negated : Bool}
    {before : Option Operand} {items : ClassItems} {tail : List Char}
    (skip : f.skip s = '[' :: tail)
    (nested : readAsciiClass? tail = none) :
    readClassRest f (fuel + 1) outer negated before items s =
      readClassRest f fuel ((negated, before, items) :: outer) (readClassStart f tail).1 none
        (readClassStart f tail).2.1 (readClassStart f tail).2.2 := by
  simp only [readClassRest, skip, nested]

/-- A class is read to its end, and more fuel makes no difference. -/
theorem readClassRest_append {fuel fuel' : Nat} (enough : fuel ≤ fuel') {outer : OpenClasses}
    {negated : Bool} {before : Option Operand} {items : ClassItems} {set : CharSet} {depth : Nat}
    (h : readClassRest f fuel outer negated before items s = .ok (set, depth, rest))
    (r : List Char) :
    readClassRest f fuel' outer negated before items (s ++ ')' :: r) =
      .ok (set, depth, rest ++ ')' :: r) := by
  induction fuel generalizing fuel' outer negated before items s with
  | zero => cases h
  | succ fuel ih =>
    obtain ⟨fuel', rfl⟩ : ∃ n, fuel' = n + 1 := ⟨fuel' - 1, by omega⟩
    have enough := Nat.le_of_succ_le_succ enough
    unfold readClassRest at h
    cases skip : f.skip s with
    | nil =>
      rw [skip] at h
      cases h
    | cons c tail =>
      have opened := Flags.skip_append_of_cons (w := ')' :: r) skip
      rw [skip] at h
      split at h
      · next same => cases same
      · next same =>
        obtain ⟨rfl, rfl⟩ := List.cons.inj same
        obtain ⟨whole, made, h⟩ := exists_of_bind_ok h
        rw [readClassRest, opened]
        refine bind_eq_ok made ?_
        split at h
        · cases h
          rfl
        · exact ih enough h
      · next same =>
        obtain ⟨rfl, rfl⟩ := List.cons.inj same
        split at h
        · next inverted inner after known =>
          obtain ⟨set, made, h⟩ := exists_of_bind_ok h
          have named :
              readAsciiClass? (tail ++ ')' :: r) = some (inverted, inner, after ++ ')' :: r) := by
            rw [readAsciiClass?_append, known]
            rfl
          rw [readClassRest_named opened named made]
          exact ih enough h
        · next unknown =>
          have nested : readAsciiClass? (tail ++ ')' :: r) = none := by
            rw [readAsciiClass?_append, unknown]
            rfl
          rw [readClassRest_nested opened nested,
            readClassStart_append (ne_nil_of_readClassRest h)]
          exact ih enough h
      · next same =>
        obtain ⟨rfl, rfl⟩ := List.cons.inj same
        rw [readClassRest, opened]
        exact ih enough h
      · next same =>
        obtain ⟨rfl, rfl⟩ := List.cons.inj same
        rw [readClassRest, opened]
        exact ih enough h
      · next same =>
        obtain ⟨rfl, rfl⟩ := List.cons.inj same
        rw [readClassRest, opened]
        exact ih enough h
      · next close bracket inter diff symm =>
        obtain ⟨⟨item, after⟩, read, h⟩ := exists_of_bind_ok h
        have read := readClassItem_append (w := ')' :: r) read (ne_nil_of_readClassRest h)
        rw [readClassRest, opened]
        split
        · next same => cases same
        · next same =>
          obtain ⟨rfl, -⟩ := List.cons.inj same
          exact absurd rfl (close _)
        · next same =>
          obtain ⟨rfl, -⟩ := List.cons.inj same
          exact absurd rfl (bracket _)
        · next same =>
          obtain ⟨s', begins⟩ :=
            exists_pair_of_append_close (s := c :: tail) (by decide) (by decide) same
          exact absurd begins (inter s')
        · next same =>
          obtain ⟨s', begins⟩ :=
            exists_pair_of_append_close (s := c :: tail) (by decide) (by decide) same
          exact absurd begins (diff s')
        · next same =>
          obtain ⟨s', begins⟩ :=
            exists_pair_of_append_close (s := c :: tail) (by decide) (by decide) same
          exact absurd begins (symm s')
        · exact bind_eq_ok read (ih enough h)

theorem readClass_append {t : Token} (h : readClass f s = .ok (t, rest)) (r : List Char) :
    readClass f (s ++ ')' :: r) = .ok (t, rest ++ ')' :: r) := by
  obtain ⟨⟨set, depth, tail⟩, read, h⟩ := exists_of_bind_ok h
  cases h
  have more : s.length + 1 ≤ (s ++ ')' :: r).length + 1 := by simp
  rw [readClass, readClassStart_append (ne_nil_of_readClassRest read)]
  exact bind_eq_ok (readClassRest_append more read r) rfl

end Classes

/-! ### Counts and groups -/

section Tokens

variable {f : Flags} {s rest w : List Char}

theorem readNumber_append {verbose comment : Bool} (full : (readNumber verbose comment s).2 ≠ []) :
    readNumber verbose comment (s ++ w) =
      ((readNumber verbose comment s).1, (readNumber verbose comment s).2 ++ w) := by
  induction s generalizing comment with
  | nil => exact absurd (by cases comment <;> rfl) full
  | cons c s ih =>
    cases comment with
    | true => exact ih full
    | false =>
      simp only [List.cons_append, readNumber] at full ⊢
      split
      · next digit =>
        rw [if_pos digit] at full
        rw [ih full]
      · next other =>
        rw [if_neg other] at full
        split
        · next blank =>
          rw [if_pos blank] at full
          exact ih full
        · next other =>
          rw [if_neg other] at full
          split
          · next hash =>
            rw [if_pos hash] at full
            exact ih full
          · rfl

theorem readDecimal_append (full : (readDecimal f s).2 ≠ []) :
    readDecimal f (s ++ w) = ((readDecimal f s).1, (readDecimal f s).2 ++ w) := by
  unfold readDecimal at full ⊢
  dsimp only at full ⊢
  have digits : (readNumber f.verbose false ((f.skip s).dropWhile Text.isBlank)).2 ≠ [] := by
    intro none
    rw [none] at full
    exact full rfl
  have start : (f.skip s).dropWhile Text.isBlank ≠ [] := by
    intro none
    rw [none] at digits
    exact digits rfl
  have skip : f.skip s ≠ [] := by
    intro none
    rw [none] at start
    exact start rfl
  rw [Flags.skip_append skip, dropWhile_append_of_ne_nil start, readNumber_append digits,
    dropWhile_append_of_ne_nil full]

/-- What is put behind a text does not go on with a question mark, which would belong to the last
token of the text. -/
def Sealed (f : Flags) (rest w : List Char) : Prop :=
  f.skip rest = [] → (f.skip (rest ++ w)).head? ≠ some '?'

theorem sealed_of_skip (h : f.skip rest ≠ []) : Sealed f rest w :=
  fun none => absurd none h

theorem readGreed_append (behind : Sealed f (readGreed f s).2 w) :
    readGreed f (s ++ w) = ((readGreed f s).1, (readGreed f s).2 ++ w) := by
  unfold readGreed at behind ⊢
  cases skip : f.skip s with
  | nil =>
    rw [skip] at behind
    split
    · next same =>
      have mark := behind skip
      rw [same] at mark
      exact absurd rfl mark
    · rfl
  | cons c r =>
    rw [Flags.skip_append_of_cons skip]
    by_cases mark : c = '?'
    · subst mark
      rfl
    · split
      · next same => exact absurd (List.cons.inj same).1 mark
      · split
        · next same => exact absurd (List.cons.inj same).1 mark
        · rfl

theorem closeCount_append {min : Option Nat} {max : Option (Option Nat)} {t : Token}
    (h : closeCount f min max s = .ok (t, rest)) (behind : Sealed f rest w) :
    closeCount f min max (s ++ w) = .ok (t, rest ++ w) := by
  unfold closeCount at h
  split at h
  · next min s =>
    dsimp only at h
    split at h
    · next small =>
      cases h
      rw [List.cons_append, closeCount, readGreed_append behind]
      exact if_pos small
    · cases h
  · next min max s =>
    dsimp only at h
    split at h
    · next ordered =>
      cases h
      rw [List.cons_append, closeCount, readGreed_append behind]
      exact if_pos ordered
    · cases h
  · cases h
  · cases h

theorem ne_nil_of_closeCount {min : Option Nat} {max : Option (Option Nat)}
    {found : Token × List Char} (h : closeCount f min max s = .ok found) : s ≠ [] := by
  rintro rfl
  unfold closeCount at h
  split at h
  · next same => cases same
  · next same => cases same
  · cases h
  · cases h

theorem exists_quantity_of_closeCount {min : Option Nat} {max : Option (Option Nat)} {t : Token}
    (h : closeCount f min max s = .ok (t, rest)) :
    ∃ min max greedy, t = .quantity min max greedy := by
  unfold closeCount at h
  split at h
  · dsimp only at h
    split at h
    · cases h
      exact ⟨_, _, _, rfl⟩
    · cases h
  · dsimp only at h
    split at h
    · cases h
      exact ⟨_, _, _, rfl⟩
    · cases h
  · cases h
  · cases h

theorem readUpper_close {min : Option Nat} {r : List Char} (skip : f.skip s = '}' :: r) :
    readUpper f min (',' :: s) = (none, '}' :: r) := by
  simp only [readUpper, skip]

theorem readUpper_decimal {min : Option Nat} (other : (f.skip s).head? ≠ some '}') :
    readUpper f min (',' :: s) =
      (some (readDecimal f (f.skip s)).1, (readDecimal f (f.skip s)).2) := by
  rw [readUpper]
  split
  · next same =>
    rw [same] at other
    exact absurd rfl other
  · rfl

theorem readUpper_append {min : Option Nat} (full : (readUpper f min s).2 ≠ []) :
    readUpper f min (s ++ w) = ((readUpper f min s).1, (readUpper f min s).2 ++ w) := by
  cases s with
  | nil => exact absurd rfl full
  | cons c s =>
    by_cases comma : c = ','
    · subst comma
      cases skip : f.skip s with
      | nil =>
        rw [readUpper_decimal (by rw [skip]; decide), skip, readDecimal, Flags.skip_nil] at full
        exact absurd rfl full
      | cons d r =>
        have longer := Flags.skip_append_of_cons (w := w) skip
        by_cases close : d = '}'
        · subst close
          rw [List.cons_append, readUpper_close skip, readUpper_close longer]
          rfl
        · have other : (d :: r).head? ≠ some '}' := fun same => close (Option.some.inj same)
          rw [readUpper_decimal (by rw [skip]; exact other), skip] at full ⊢
          rw [List.cons_append, readUpper_decimal (by rw [longer]; exact other), longer,
            ← List.cons_append, readDecimal_append full]
    · rw [List.cons_append, readUpper, readUpper]
      · rfl
      all_goals simp [comma]

theorem readCount_append {t : Token} (h : readCount f s = .ok (t, rest))
    (behind : Sealed f rest w) : readCount f (s ++ w) = .ok (t, rest ++ w) := by
  unfold readCount at h ⊢
  dsimp only at h ⊢
  have upper := ne_nil_of_closeCount h
  have lower : (readDecimal f s).2 ≠ [] := by
    intro none
    rw [none] at upper
    exact upper rfl
  rw [readDecimal_append lower, readUpper_append upper]
  exact closeCount_append h behind

theorem readName_append {name : List Char} (h : readName s = .ok (name, rest)) :
    readName (s ++ w) = .ok (name, rest ++ w) := by
  unfold readName at h ⊢
  dsimp only at h ⊢
  split at h
  · next c tail same =>
    split at h
    · next legal =>
      simp only [Bool.and_eq_true, decide_eq_true_eq] at legal
      obtain ⟨⟨short, starts⟩, continues⟩ := legal
      rw [takeWhile_append_of_lt short]
      rw [same] at h short ⊢
      cases h
      have longer : (c :: tail).length < (s ++ w).length := by
        rw [List.length_append]
        omega
      simp only [longer, starts, continues, decide_true, Bool.and_self, if_true,
        List.drop_append_of_le_length (Nat.succ_le_of_lt short)]
    · cases h
  · cases h

theorem readOptions_append {t : Token} (h : readOptions s = .ok (t, rest)) (r : List Char) :
    readOptions (s ++ ')' :: r) = .ok (t, rest ++ ')' :: r) := by
  unfold readOptions at h
  split at h
  · cases h
  · cases h
  · cases h
  · cases h
  · next s =>
    obtain ⟨⟨name, tail⟩, read, h⟩ := exists_of_bind_ok h
    cases h
    rw [List.cons_append, List.cons_append, readOptions]
    exact bind_eq_ok (readName_append read) rfl
  · next s notEqual notMark =>
    obtain ⟨⟨name, tail⟩, read, h⟩ := exists_of_bind_ok h
    cases h
    rw [List.cons_append, readOptions]
    · exact bind_eq_ok (readName_append read) rfl
    · intro s' same
      obtain ⟨s', rfl⟩ := exists_of_append_close (by decide) same
      exact notEqual s' rfl
    · intro s' same
      obtain ⟨s', rfl⟩ := exists_of_append_close (by decide) same
      exact notMark s' rfl
  · next equal mark behindEqual behindMark name angle =>
    dsimp only at h
    have short : (s.takeWhile fun c => c != ':' && c != ')').length < s.length := by
      by_contra long
      rw [List.drop_eq_nil_iff.mpr (Nat.le_of_not_lt long)] at h
      cases h
    rw [readOptions]
    · rw [takeWhile_append_of_lt short, drop_takeWhile_append]
      split at h
      · next tail ending =>
        obtain ⟨changes, read, h⟩ := exists_of_bind_ok h
        cases h
        rw [ending]
        exact bind_eq_ok read rfl
      · next tail ending =>
        split at h
        · cases h
        · next written =>
          obtain ⟨changes, read, h⟩ := exists_of_bind_ok h
          cases h
          rw [ending]
          exact (if_neg written).trans (bind_eq_ok read rfl)
      · cases h
    · intro s' begins
      obtain ⟨s', rfl⟩ := exists_of_append_close (by decide) begins
      exact equal s' rfl
    · intro s' begins
      obtain ⟨s', rfl⟩ := exists_of_append_close (by decide) begins
      exact mark s' rfl
    · intro s' begins
      obtain ⟨s', rfl⟩ := exists_pair_of_append_close (by decide) (by decide) begins
      exact behindEqual s' rfl
    · intro s' begins
      obtain ⟨s', rfl⟩ := exists_pair_of_append_close (by decide) (by decide) begins
      exact behindMark s' rfl
    · intro s' begins
      obtain ⟨s', rfl⟩ := exists_pair_of_append_close (by decide) (by decide) begins
      exact name s' rfl
    · intro s' begins
      obtain ⟨s', rfl⟩ := exists_of_append_close (by decide) begins
      exact angle s' rfl

theorem readGroup_of_ne (other : (f.skip s).head? ≠ some '?') :
    readGroup f s = .ok (.capture none, s) := by
  unfold readGroup
  split
  · next same =>
    rw [same] at other
    exact absurd rfl other
  · rfl

theorem readGroup_append {t : Token} {r : List Char} (h : readGroup f s = .ok (t, rest))
    (behind : t = .capture none → Sealed f rest (')' :: r)) :
    readGroup f (s ++ ')' :: r) = .ok (t, rest ++ ')' :: r) := by
  by_cases mark : (f.skip s).head? = some '?'
  · obtain ⟨tail, skip⟩ := List.head?_eq_some_iff.mp mark
    simp only [readGroup, skip] at h
    simp only [readGroup, Flags.skip_append_of_cons skip]
    exact readOptions_append h r
  · rw [readGroup_of_ne mark] at h
    cases h
    refine readGroup_of_ne ?_
    by_cases none : f.skip s = []
    · exact behind rfl none
    · rwa [Flags.skip_append none, List.head?_append_of_ne_nil _ none]

theorem readSign_append (min : Nat) (max : Option Nat) (s r : List Char) :
    readSign f min max (s ++ ')' :: r) =
      ((readSign f min max s).1, (readSign f min max s).2 ++ ')' :: r) := by
  have behind : Sealed {} (readGreed {} s).2 (')' :: r) := by
    intro none
    rw [Flags.skip, if_neg Bool.false_ne_true] at none ⊢
    rw [none, List.nil_append, List.head?_cons]
    decide
  rw [readSign, readGreed_append behind]
  rfl

/-- A token is read as before if a closing parenthesis is put behind the text, unless a comment
hides the parenthesis and a question mark comes behind it. -/
theorem readToken_append {sc : Scope} {c : Char} {t : Token} {r : List Char}
    (h : readToken sc.flags c s = .ok (t, rest))
    (behind : Sealed (sc.after t).flags rest (')' :: r)) :
    readToken sc.flags c (s ++ ')' :: r) = .ok (t, rest ++ ')' :: r) := by
  unfold readToken at h ⊢
  split at h
  case h_1 =>
    refine readGroup_append h ?_
    rintro rfl
    exact behind
  case h_4 =>
    obtain ⟨a, made, same⟩ := exists_of_map_ok h
    cases same
    rw [made]
    rfl
  case h_7 =>
    rw [readSign_append]
    cases h
    rfl
  case h_8 =>
    rw [readSign_append]
    cases h
    rfl
  case h_9 =>
    rw [readSign_append]
    cases h
    rfl
  case h_10 =>
    obtain ⟨min, max, greedy, rfl⟩ := exists_quantity_of_closeCount h
    exact readCount_append h behind
  case h_11 => exact readClass_append h r
  case h_12 =>
    obtain ⟨⟨a, tail⟩, read, same⟩ := exists_of_map_ok h
    cases same
    have brace : (')' :: r).head? ≠ some '{' := by
      rw [List.head?_cons]
      decide
    rw [readEscape_append read fun _ => brace]
    rfl
  all_goals
    cases h
    rfl

end Tokens

end Pattern

end Polyglot

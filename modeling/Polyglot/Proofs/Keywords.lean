import Polyglot.Proofs.Hits
import Polyglot.Proofs.Lines
import Polyglot.Proofs.Runs

/-!
Rules that look for a keyword. A match of such a rule lies around a word that stands in the text,
and whether there is one depends on that word alone: the rule also matches the word between two
numbers (`Pattern.exists_standsIn_of_isKeyed`). So a rule that has nothing against a name by itself
has nothing against it anywhere.
-/

namespace Polyglot

namespace Text

/-! ### Words that stand in a text -/

/-- A word stands in a text: the characters beside it belong to no word. -/
def StandsIn (w s : List Char) : Prop :=
  ∃ l r, s = l ++ (w ++ r) ∧ l.getLast?.any isAsciiWord = false ∧ r.head?.any isAsciiWord = false

/-- A text begins with a run of characters with a property. -/
theorem exists_run (p : Char → Bool) (s : List Char) :
    ∃ w r, s = w ++ r ∧ (∀ c ∈ w, p c = true) ∧ r.head?.any p = false := by
  induction s with
  | nil => exact ⟨[], [], rfl, List.forall_mem_nil _, rfl⟩
  | cons c s ih =>
    by_cases hc : p c = true
    · obtain ⟨w, r, rfl, all, stop⟩ := ih
      exact ⟨c :: w, r, rfl, List.forall_mem_cons.mpr ⟨hc, all⟩, stop⟩
    · exact ⟨[], c :: s, rfl, List.forall_mem_nil _, by simpa using hc⟩

/-- A text ends with a run of characters with a property. -/
theorem exists_run_right (p : Char → Bool) (s : List Char) :
    ∃ l w, s = l ++ w ∧ (∀ c ∈ w, p c = true) ∧ l.getLast?.any p = false := by
  obtain ⟨w, l, same, all, stop⟩ := exists_run p s.reverse
  refine ⟨l.reverse, w.reverse, ?_, by simpa using all, by rw [List.getLast?_reverse]; exact stop⟩
  rw [← List.reverse_append, ← same, List.reverse_reverse]

/-- Word characters in a text belong to a word that stands in it. -/
theorem exists_standsIn {u l r : List Char} (hu : IsAsciiName u) :
    ∃ l' p q r', l = l' ++ p ∧ r = q ++ r' ∧ IsAsciiName (p ++ (u ++ q)) ∧
      StandsIn (p ++ (u ++ q)) (l ++ (u ++ r)) := by
  obtain ⟨l', p, rfl, hp, front⟩ := exists_run_right isAsciiWord l
  obtain ⟨q, r', rfl, hq, back⟩ := exists_run isAsciiWord r
  refine ⟨l', p, q, r', rfl, rfl, ⟨by simp [hu.full], ?_⟩, l', r',
    by simp only [List.append_assoc], front, back⟩
  simpa only [List.forall_mem_append] using ⟨hp, hu.word, hq⟩

/-- The words of a text are its first word and the words behind that. -/
theorem standsIn_append {w x s : List Char} (hw : IsAsciiName w)
    (hx : ∀ d ∈ x, isAsciiWord d = true) (stop : s.head?.any isAsciiWord = false)
    (h : StandsIn w (x ++ s)) : w = x ∨ StandsIn w s := by
  obtain ⟨l, r, same, front, back⟩ := h
  rcases List.append_eq_append_iff.mp same with ⟨a, rfl, behind⟩ | ⟨a, rfl, behind⟩
  · refine .inr ⟨a, r, behind, ?_, back⟩
    rcases List.eq_nil_or_concat a with rfl | ⟨a, d, rfl⟩
    · rfl
    · rw [List.concat_eq_append, ← List.append_assoc, List.getLast?_concat] at front
      rw [List.concat_eq_append, List.getLast?_concat]
      exact front
  · have none : l = [] := by
      rcases List.eq_nil_or_concat l with rfl | ⟨l, d, rfl⟩
      · rfl
      · rw [List.concat_eq_append, List.getLast?_concat, Option.any_some, hx d (by simp)] at front
        cases front
    subst none
    exact .inl (run_unique hw.word hx back stop behind).1

/-- All words that stand in a text have a property. -/
def EachWord (P : List Char → Prop) (s : List Char) : Prop :=
  ∀ w, IsAsciiName w → StandsIn w s → P w

namespace EachWord

variable {P : List Char → Prop} {s : List Char}

theorem nil : EachWord P [] := by
  rintro w hw ⟨l, r, same, -, -⟩
  simp [hw.full] at same

theorem word {x : List Char} (hx : ∀ d ∈ x, isAsciiWord d = true)
    (stop : s.head?.any isAsciiWord = false) (here : x ≠ [] → P x) (h : EachWord P s) :
    EachWord P (x ++ s) := by
  intro w hw stands
  rcases standsIn_append hw hx stop stands with rfl | behind
  · exact here hw.full
  · exact h w hw behind

theorem symbols {q : List Char} (hq : (q.all fun c => !isAsciiWord c) = true) (h : EachWord P s) :
    EachWord P (q ++ s) := by
  induction q with
  | nil => exact h
  | cons c q ih =>
    obtain ⟨first, others⟩ := Bool.and_eq_true_iff.mp hq
    rintro w hw ⟨l, r, same, front, back⟩
    refine ih others w hw ?_
    cases l with
    | nil =>
      obtain ⟨d, w, rfl⟩ := List.exists_cons_of_ne_nil hw.full
      obtain ⟨rfl, -⟩ := List.cons.inj same
      exact absurd (hw.word c List.mem_cons_self) (by simpa using first)
    | cons d l =>
      refine ⟨l, r, (List.cons.inj same).2, ?_, back⟩
      cases l with
      | nil => rfl
      | cons e l => simpa [List.getLast?_cons] using front

end EachWord

/-- A word between two numbers. -/
def alone (w : List Char) : List Char :=
  ['0', ' '] ++ (w ++ [' ', '0'])

end Text

namespace Pattern

open Text

/-! ### Texts that have what a match needs -/

theorem beginsWith_append_iff {run more : List CharSet} {s : List Char} :
    beginsWith (run ++ more) s = true ↔ beginsWith run s = true ∧
      beginsWith more (s.drop run.length) = true := by
  induction run generalizing s with
  | nil => simp [beginsWith]
  | cons set run ih =>
    cases s with
    | nil => simp [beginsWith]
    | cons c s => simp [beginsWith, ih, and_assoc]

theorem beginsWith_singles {w s : List Char} :
    beginsWith (w.map .single) s = true ↔ ∃ r, s = w ++ r := by
  induction w generalizing s with
  | nil => simp [beginsWith]
  | cons c w ih =>
    cases s with
    | nil => simp [beginsWith]
    | cons d s =>
      simp only [List.map_cons, beginsWith, CharSet.has_single, Bool.and_eq_true,
        decide_eq_true_eq, ih, List.cons_append, List.cons.injEq, exists_and_left]

theorem occurs_iff {run : List CharSet} {s : List Char} :
    occurs run s = true ↔ ∃ l r, s = l ++ r ∧ beginsWith run r = true := by
  constructor
  · intro h
    induction s with
    | nil =>
      obtain rfl : run = [] := List.isEmpty_iff.mp h
      exact ⟨[], [], rfl, rfl⟩
    | cons c s ih =>
      rcases Bool.or_eq_true_iff.mp h with here | later
      · exact ⟨[], c :: s, rfl, here⟩
      · obtain ⟨l, r, rfl, begins⟩ := ih later
        exact ⟨c :: l, r, rfl, begins⟩
  · rintro ⟨l, r, rfl, begins⟩
    exact occurs_append_left (occurs_of_beginsWith begins) l

/-- The characters of a shortest match, for patterns that leave no choice. -/
def bare : Pattern → Option (List CharSet)
  | empty => some []
  | char set => some [set]
  | look _ => none
  | seq p q =>
    match bare p, bare q with
    | some run, some more => some (run ++ more)
    | _, _ => none
  | alt _ _ => none
  | star _ _ => some []
  | plus _ p => bare p
  | group _ p => bare p

theorem self_mem_laps (greedy : Bool) (step : Cursor → List Cursor) (fuel : Nat) (c : Cursor) :
    c ∈ laps greedy step fuel c := by
  cases fuel with
  | zero => exact List.mem_singleton_self c
  | succ fuel => cases greedy <;> simp [laps]

/-- A text that begins with the characters of a shortest match begins with a match. -/
theorem exists_way_of_bare {p : Pattern} {run : List CharSet} {c : Cursor} (h : p.bare = some run)
    (begins : beginsWith run c.rest = true) : ∃ e ∈ p.ways c, e.rest = c.rest.drop run.length := by
  induction p generalizing run c with
  | empty =>
    obtain rfl := Option.some.inj h
    exact ⟨c, List.mem_singleton_self c, rfl⟩
  | char set =>
    obtain rfl := Option.some.inj h
    cases hrest : c.rest with
    | nil =>
      rw [hrest] at begins
      cases begins
    | cons d r =>
      rw [hrest] at begins
      have has : set.has d = true := by simpa [beginsWith] using begins
      exact ⟨c.past [d], by rw [ways_char hrest has]; exact List.mem_singleton_self _,
        Cursor.rest_past (w := [d]) hrest⟩
  | look test => cases h
  | seq p q ihp ihq =>
    simp only [bare] at h
    split at h
    · next first second hp hq =>
      obtain rfl := Option.some.inj h
      obtain ⟨here, further⟩ := beginsWith_append_iff.mp begins
      obtain ⟨d, hd, restd⟩ := ihp hp here
      obtain ⟨e, he, reste⟩ := ihq hq (c := d) (by rw [restd]; exact further)
      refine ⟨e, List.mem_flatMap.mpr ⟨d, hd, he⟩, ?_⟩
      rw [reste, restd, List.drop_drop, List.length_append]
    · cases h
  | alt p q _ _ => cases h
  | star greedy p _ =>
    obtain rfl := Option.some.inj h
    exact ⟨c, self_mem_laps greedy p.ways _ c, rfl⟩
  | plus greedy p ih =>
    obtain ⟨d, hd, rest⟩ := ih h begins
    exact ⟨d, List.mem_flatMap.mpr ⟨d, hd, self_mem_laps greedy p.ways _ d⟩, rest⟩
  | group index p ih =>
    obtain ⟨d, hd, rest⟩ := ih (c := c.enter) h begins
    exact ⟨c.leave index d, List.mem_map.mpr ⟨d, hd, rfl⟩, rest⟩

theorem isMatch_of_occurs {p : Pattern} {run : List CharSet} {s : List Char}
    (tame : p.isTame = true) (h : p.bare = some run) (found : occurs run s = true) :
    p.isMatch s = true := by
  obtain ⟨l, r, rfl, begins⟩ := occurs_iff.mp found
  obtain ⟨e, he, -⟩ := exists_way_of_bare (c := .start l.getLast? r) h begins
  exact isMatch_iff.mpr ⟨l, r, rfl, (isSome_matchAt_iff tame).mpr ⟨e, he⟩⟩

/-! ### Keywords -/

/-- A keyword with one character before it, if one is asked for, and some behind it. -/
def keyRun (left : Option CharSet) (key : List Char) (right : List CharSet) : List CharSet :=
  left.toList ++ (key.map .single ++ right)

theorem occurs_keyRun_iff {left : Option CharSet} {key : List Char} {right : List CharSet}
    {s : List Char} : occurs (keyRun left key right) s = true ↔
      ∃ l r, s = l ++ (key ++ r) ∧ (∀ set ∈ left, l.getLast?.any set.has = true) ∧
        beginsWith right r = true := by
  have behind {t : List Char} : beginsWith (key.map .single ++ right) t = true ↔
      ∃ r, t = key ++ r ∧ beginsWith right r = true := by
    rw [beginsWith_append_iff, beginsWith_singles]
    constructor
    · rintro ⟨⟨r, rfl⟩, more⟩
      exact ⟨r, rfl, by simpa using more⟩
    · rintro ⟨r, rfl, more⟩
      exact ⟨⟨r, rfl⟩, by simpa using more⟩
  rw [occurs_iff]
  cases left with
  | none =>
    constructor
    · rintro ⟨l, t, rfl, begins⟩
      obtain ⟨r, rfl, more⟩ := behind.mp begins
      exact ⟨l, r, rfl, fun _ h => (by cases h), more⟩
    · rintro ⟨l, r, rfl, -, more⟩
      exact ⟨l, key ++ r, rfl, behind.mpr ⟨r, rfl, more⟩⟩
  | some set =>
    constructor
    · rintro ⟨l, t, rfl, begins⟩
      cases t with
      | nil => cases begins
      | cons c t =>
        obtain ⟨has, begins⟩ := Bool.and_eq_true_iff.mp begins
        obtain ⟨r, rfl, more⟩ := behind.mp begins
        refine ⟨l ++ [c], r, by rw [List.append_assoc]; rfl, fun _ h => ?_, more⟩
        obtain rfl := Option.some.inj h
        rw [List.getLast?_concat]
        exact has
    · rintro ⟨l, r, rfl, last, more⟩
      rcases List.eq_nil_or_concat l with rfl | ⟨l, c, rfl⟩
      · cases last set rfl
      · rw [List.concat_eq_append] at last ⊢
        refine ⟨l, c :: (key ++ r),
          by rw [List.append_assoc]; rfl, Bool.and_eq_true_iff.mpr ⟨?_, ?_⟩⟩
        · simpa [List.getLast?_concat] using last set rfl
        · exact behind.mpr ⟨r, rfl, more⟩

/-- Whether a pattern looks for a keyword, and for nothing on its sides that a space and a zero
would not do for. -/
def isKeyed (p : Pattern) (left : Option CharSet) (key : List Char) (right : List CharSet) : Bool :=
  p.isTame && p.bare == some (keyRun left key right) && (runs p.outline).contains
    (keyRun left key right) && key.all isAsciiWord && !key.isEmpty && left.all
    (fun set => set.has ' ') && beginsWith right [' ', '0'] &&
    (right.tail.isEmpty || right.head? == some (.single ' '))

section Keyed

variable {left : Option CharSet} {key : List Char} {right : List CharSet} {s : List Char}

/-- The word around a keyword has the keyword between two numbers too. -/
theorem exists_standsIn_of_occurs (hkey : IsAsciiName key)
    (blank : ∀ set ∈ left, set.has ' ' = true) (zero : beginsWith right [' ', '0'] = true)
    (short : right.tail = [] ∨ right.head? = some (.single ' '))
    (h : occurs (keyRun left key right) s = true) :
    ∃ w, IsAsciiName w ∧ StandsIn w s ∧ key <:+: w ∧
      occurs (keyRun left key right) (alone w) = true := by
  obtain ⟨l, r, rfl, before, behind⟩ := occurs_keyRun_iff.mp h
  obtain ⟨l', p, q, r', rfl, rfl, name, stands⟩ := exists_standsIn (l := l) (r := r) hkey
  refine ⟨p ++ (key ++ q), name, stands, ⟨p, q, List.append_assoc _ _ _⟩, ?_⟩
  refine occurs_keyRun_iff.mpr ⟨['0', ' '] ++ p, q ++ [' ', '0'],
    by simp [alone], fun set mem => ?_, ?_⟩
  · rcases List.eq_nil_or_concat p with rfl | ⟨p, c, rfl⟩
    · exact blank set mem
    · have last := before set mem
      rw [List.concat_eq_append, ← List.append_assoc, List.getLast?_concat] at last ⊢
      exact last
  · -- Where the word goes on behind the keyword, one more character is all that was asked for.
    cases q with
    | nil => exact zero
    | cons c q =>
      cases right with
      | nil => rfl
      | cons set more =>
        obtain ⟨has, -⟩ := Bool.and_eq_true_iff.mp behind
        rcases short with single | space
        · obtain rfl : more = [] := single
          exact Bool.and_eq_true_iff.mpr ⟨has, rfl⟩
        · obtain rfl : set = .single ' ' := Option.some.inj space
          have word : isAsciiWord c = true := name.word c (by simp)
          obtain rfl : c = ' ' := by simpa using has
          cases word

theorem exists_standsIn_of_isKeyed {p : Pattern} (keyed : p.isKeyed left key right = true)
    (h : p.isMatch s = true) :
    ∃ w, IsAsciiName w ∧ StandsIn w s ∧ key <:+: w ∧ p.isMatch (alone w) = true := by
  simp only [isKeyed, Bool.and_eq_true, Bool.or_eq_true, beq_iff_eq, List.contains_iff_mem,
    List.all_eq_true, Bool.not_eq_true', List.isEmpty_eq_false_iff, Option.all_eq_true,
    List.isEmpty_iff] at keyed
  obtain ⟨⟨⟨⟨⟨⟨⟨tame, bare⟩, needed⟩, word⟩, full⟩, blank⟩, zero⟩, short⟩ := keyed
  obtain ⟨w, name, stands, inside, found⟩ :=
    exists_standsIn_of_occurs ⟨full, word⟩ blank zero short (occurs_of_isMatch needed h)
  exact ⟨w, name, stands, inside, isMatch_of_occurs tame bare found⟩

end Keyed

end Pattern

end Polyglot

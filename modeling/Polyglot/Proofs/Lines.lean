import Polyglot.Text.Blank
import Polyglot.Text.Lines
import Polyglot.Text.Substring
import Polyglot.Text.Word

/-!
Trimming, splitting and joining. `trim_eq` finds the trimmed text between two blank ones, and
`splitOn_join` and `lines_join` read the pieces back that `join` puts together.
-/

namespace Polyglot.Text

/-! ### Trimming -/

/-- A text of blank characters only; the empty text is one. -/
def IsGap (s : List Char) : Prop :=
  ∀ c ∈ s, isBlank c = true

instance (s : List Char) : Decidable (IsGap s) :=
  decidable_of_iff (s.all isBlank = true) List.all_eq_true

/-- A text without blank characters at its ends. -/
def IsTight (s : List Char) : Prop :=
  (∀ c ∈ s.head?, isBlank c = false) ∧ ∀ c ∈ s.getLast?, isBlank c = false

instance (s : List Char) : Decidable (IsTight s) :=
  decidable_of_iff (s.head?.all (!isBlank ·) = true ∧ s.getLast?.all (!isBlank ·) = true)
    (by simp only [IsTight, Option.all_eq_true, Option.mem_def, Bool.not_eq_true'])

/-- A text that is not empty and has no blank characters. -/
structure IsWord (w : List Char) : Prop where
  full : w ≠ []
  solid : ∀ c ∈ w, isBlank c = false

instance (w : List Char) : Decidable (IsWord w) :=
  decidable_of_iff (w ≠ [] ∧ w.all (!isBlank ·) = true)
    ⟨fun h => ⟨h.1, by simpa using h.2⟩, fun h => ⟨h.full, by simpa using h.solid⟩⟩

theorem IsWord.isTight {w : List Char} (h : IsWord w) : IsTight w :=
  ⟨fun c hc => h.solid c (List.mem_of_mem_head? hc),
    fun c hc => h.solid c (List.mem_of_getLast? hc)⟩

theorem IsGap.append {u v : List Char} (hu : IsGap u) (hv : IsGap v) : IsGap (u ++ v) := by
  intro c hc
  rcases List.mem_append.mp hc with left | right
  · exact hu c left
  · exact hv c right

theorem isGap_nil : IsGap [] := by
  intro c hc
  cases hc

theorem IsGap.ne {u : List Char} (hu : IsGap u) {c : Char} (hc : isBlank c = false) : c ∉ u := by
  intro mem
  rw [hu c mem] at hc
  cases hc

/-- A text that is no gap has a first character that is not blank. -/
theorem exists_first_of_not_isGap {s : List Char} (h : ¬ IsGap s) :
    ∃ u c r, s = u ++ c :: r ∧ IsGap u ∧ isBlank c = false := by
  induction s with
  | nil => exact absurd isGap_nil h
  | cons c s ih =>
    by_cases hc : isBlank c = true
    · have rest : ¬ IsGap s := by
        intro gap
        refine h fun d hd => ?_
        rcases List.mem_cons.mp hd with rfl | later
        · exact hc
        · exact gap d later
      obtain ⟨u, d, r, rfl, gap, hd⟩ := ih rest
      refine ⟨c :: u, d, r, rfl, ?_, hd⟩
      intro e he
      rcases List.mem_cons.mp he with rfl | later
      · exact hc
      · exact gap e later
    · exact ⟨[], c, s, rfl, isGap_nil, by simpa using hc⟩

theorem trimRight_append {s v : List Char} (hv : IsGap v) : trimRight (s ++ v) = trimRight s := by
  unfold trimRight
  rw [List.reverse_append, List.dropWhile_append_of_pos]
  intro c hc
  exact hv c (List.mem_reverse.mp hc)

theorem trimRight_of_last {s : List Char} {c : Char} (hc : isBlank c = false) :
    trimRight (s ++ [c]) = s ++ [c] := by
  simp [trimRight, hc]

/-- What stands between two gaps is the trimmed text. -/
theorem trim_eq {u t v : List Char} (hu : IsGap u) (ht : IsTight t) (hv : IsGap v) :
    trim (u ++ t ++ v) = t := by
  unfold trim trimLeft
  rw [List.append_assoc, List.dropWhile_append_of_pos hu]
  cases t with
  | nil =>
    have none : (v ++ []).dropWhile isBlank = [] := List.dropWhile_append_of_pos hv
    rw [List.append_nil] at none
    rw [List.nil_append, none]
    rfl
  | cons c t =>
    have hc : isBlank c = false := ht.1 c rfl
    rw [List.cons_append, List.dropWhile_cons_of_neg (by simp [hc]), ← List.cons_append,
      trimRight_append hv]
    rw [← List.dropLast_concat_getLast (List.cons_ne_nil c t)]
    exact trimRight_of_last (ht.2 _ (List.getLast?_eq_some_getLast _))

theorem trim_of_isTight {t : List Char} (ht : IsTight t) : trim t = t := by
  simpa using trim_eq isGap_nil ht isGap_nil

/-- Every text is its trimmed text between two gaps. -/
theorem exists_trim (s : List Char) :
    ∃ u v, IsGap u ∧ IsGap v ∧ IsTight (trim s) ∧ s = u ++ trim s ++ v := by
  have decomposed : ∃ u t v, IsGap u ∧ IsGap v ∧ IsTight t ∧ s = u ++ t ++ v := by
    by_cases gap : IsGap s
    · refine ⟨s, [], [], gap, isGap_nil, ⟨?_, ?_⟩, by simp⟩ <;>
      · intro c hc
        cases hc
    · obtain ⟨u, c, r, hs, hu, hc⟩ := exists_first_of_not_isGap gap
      have gap' : ¬ IsGap (c :: r).reverse := by
        intro all
        rw [all c (by simp)] at hc
        cases hc
      obtain ⟨v, d, t, hr, hv, hd⟩ := exists_first_of_not_isGap gap'
      have turned : c :: r = (t.reverse ++ [d]) ++ v.reverse := by
        have := congrArg List.reverse hr
        simpa using this
      refine ⟨u, t.reverse ++ [d], v.reverse, hu, fun e he => hv e (List.mem_reverse.mp he),
        ⟨?_, ?_⟩, by rw [hs, turned, ← List.append_assoc]⟩
      · intro e he
        have head : (c :: r).head? = some e := by
          rw [turned]
          cases ht : t.reverse with
          | nil => simpa [ht] using he
          | cons x xs => simpa [ht] using he
        obtain rfl : c = e := by simpa using head
        exact hc
      · intro e he
        obtain rfl : d = e := by simpa using he
        exact hd
  obtain ⟨u, t, v, hu, hv, ht, rfl⟩ := decomposed
  rw [trim_eq hu ht hv]
  exact ⟨u, v, hu, hv, ht, rfl⟩

theorem isTight_trim (s : List Char) : IsTight (trim s) := by
  obtain ⟨u, v, -, -, tight, -⟩ := exists_trim s
  exact tight

/-- Blank characters at the ends make no difference. -/
theorem trim_append_gaps {u v : List Char} (hu : IsGap u) (hv : IsGap v) (s : List Char) :
    trim (u ++ s ++ v) = trim s := by
  obtain ⟨u', v', hu', hv', tight, hs⟩ := exists_trim s
  have outer : u ++ s ++ v = (u ++ u') ++ trim s ++ (v' ++ v) := by
    conv => lhs; rw [hs]
    simp [List.append_assoc]
  rw [outer]
  exact trim_eq (hu.append hu') tight (hv'.append hv)

theorem trim_ne_nil {s : List Char} (h : ¬ IsGap s) : trim s ≠ [] := by
  intro none
  obtain ⟨u, v, hu, hv, -, hs⟩ := exists_trim s
  rw [none, List.append_nil] at hs
  exact h (hs ▸ hu.append hv)

theorem trimLeft_append_of_not_isGap {s : List Char} (h : ¬ IsGap s) (r : List Char) :
    trimLeft (s ++ r) = trimLeft s ++ r := by
  obtain ⟨u, c, s', rfl, hu, hc⟩ := exists_first_of_not_isGap h
  unfold trimLeft
  rw [List.append_assoc, List.dropWhile_append_of_pos hu, List.dropWhile_append_of_pos hu,
    List.cons_append, List.dropWhile_cons_of_neg (by simp [hc]),
    List.dropWhile_cons_of_neg (by simp [hc]), List.cons_append]

theorem trimRight_append_of_not_isGap {s : List Char} (h : ¬ IsGap s) (a : List Char) :
    trimRight (a ++ s) = a ++ trimRight s := by
  have turned : ¬ IsGap s.reverse := fun gap => h fun c hc => gap c (List.mem_reverse.mpr hc)
  have left := trimLeft_append_of_not_isGap turned a.reverse
  unfold trimLeft at left
  unfold trimRight
  rw [List.reverse_append, left, List.reverse_append, List.reverse_reverse]

theorem exists_trimLeft (s : List Char) : ∃ u, IsGap u ∧ s = u ++ trimLeft s := by
  refine ⟨s.takeWhile isBlank, ?_, (List.takeWhile_append_dropWhile).symm⟩
  intro c hc
  exact List.all_eq_true.mp List.all_takeWhile c hc

theorem exists_trimRight (s : List Char) : ∃ v, IsGap v ∧ s = trimRight s ++ v := by
  obtain ⟨u, hu, hs⟩ := exists_trimLeft s.reverse
  refine ⟨u.reverse, fun c hc => hu c (List.mem_reverse.mp hc), ?_⟩
  have turned := congrArg List.reverse hs
  simpa [trimLeft, trimRight] using turned

/-- The first character with a property stands at one place. -/
theorem first_unique {p : Char → Bool} {v w x y : List Char} {b c : Char}
    (hv : ∀ d ∈ v, p d = false) (hw : ∀ d ∈ w, p d = false) (hb : p b = true) (hc : p c = true)
    (same : v ++ b :: x = w ++ c :: y) :
    v = w ∧ b = c ∧ x = y := by
  induction v generalizing w with
  | nil =>
    cases w with
    | nil => simpa using same
    | cons d w =>
      obtain ⟨rfl, -⟩ := List.cons.inj same
      rw [hw b List.mem_cons_self] at hb
      cases hb
  | cons d v ih =>
    cases w with
    | nil =>
      obtain ⟨rfl, -⟩ := List.cons.inj same
      rw [hv d List.mem_cons_self] at hc
      cases hc
    | cons e w =>
      obtain ⟨rfl, further⟩ := List.cons.inj same
      obtain ⟨rfl, rest⟩ := ih (fun x hx => hv x (List.mem_cons_of_mem _ hx))
        (fun x hx => hw x (List.mem_cons_of_mem _ hx)) further
      exact ⟨rfl, rest⟩

theorem split_unique {sep : Char} {v w x y : List Char} (hv : sep ∉ v) (hw : sep ∉ w)
    (same : v ++ sep :: x = w ++ sep :: y) : v = w ∧ x = y := by
  have differs {u : List Char} (hu : sep ∉ u) : ∀ d ∈ u, (d == sep) = false := by
    intro d hd
    exact beq_eq_false_iff_ne.mpr fun equal => hu (equal ▸ hd)
  obtain ⟨left, -, right⟩ :=
    first_unique (p := (· == sep)) (differs hv) (differs hw) (by simp) (by simp) same
  exact ⟨left, right⟩

/-- A run of characters with a property ends at one place. -/
theorem run_unique {p : Char → Bool} {v w x y : List Char} (hv : ∀ c ∈ v, p c = true)
    (hw : ∀ c ∈ w, p c = true) (hx : x.head?.any p = false) (hy : y.head?.any p = false)
    (same : v ++ x = w ++ y) : v = w ∧ x = y := by
  have taken {u z : List Char} (hu : ∀ c ∈ u, p c = true) (hz : z.head?.any p = false) :
      (u ++ z).takeWhile p = u := by
    have stop : z.takeWhile p = [] := by
      cases z with
      | nil => rfl
      | cons c z => exact List.takeWhile_cons_of_neg (by simpa using hz)
    rw [List.takeWhile_append_of_pos hu, stop, List.append_nil]
  have first : v = w := by rw [← taken hv hx, same, taken hw hy]
  subst first
  exact ⟨rfl, List.append_cancel_left same⟩

/-- The same from the end on. -/
theorem run_unique_right {p : Char → Bool} {x y v w : List Char} (hv : ∀ c ∈ v, p c = true)
    (hw : ∀ c ∈ w, p c = true) (hx : x.getLast?.any p = false) (hy : y.getLast?.any p = false)
    (same : x ++ v = y ++ w) : x = y ∧ v = w := by
  rw [← List.head?_reverse] at hx hy
  have turned : v.reverse ++ x.reverse = w.reverse ++ y.reverse := by
    rw [← List.reverse_append, same, List.reverse_append]
  obtain ⟨behind, before⟩ := run_unique (by simpa using hv) (by simpa using hw) hx hy turned
  exact ⟨List.reverse_inj.mp before, List.reverse_inj.mp behind⟩

/-- ASCII letters, digits and underscores, at least one of them. -/
structure IsAsciiName (w : List Char) : Prop where
  full : w ≠ []
  word : ∀ c ∈ w, isAsciiWord c = true

instance (w : List Char) : Decidable (IsAsciiName w) :=
  decidable_of_iff ((!w.isEmpty && w.all isAsciiWord) = true) <| by
    simp only [Bool.and_eq_true, Bool.not_eq_true', List.isEmpty_eq_false_iff, List.all_eq_true]
    exact ⟨fun h => ⟨h.1, h.2⟩, fun h => ⟨h.full, h.word⟩⟩

/-! ### Splitting and joining -/

section Split

variable {sep : Char}

theorem splitOn_of_not_mem {s : List Char} (h : sep ∉ s) : splitOn sep s = [s] := by
  induction s with
  | nil => rfl
  | cons c s ih =>
    have hc : c ≠ sep := fun same => h (same ▸ List.mem_cons_self)
    rw [splitOn, if_neg hc, ih fun mem => h (List.mem_cons_of_mem _ mem)]

theorem splitOn_append {l : List Char} (h : sep ∉ l) (r : List Char) :
    splitOn sep (l ++ sep :: r) = l :: splitOn sep r := by
  induction l with
  | nil => simp [splitOn]
  | cons c l ih =>
    have hc : c ≠ sep := fun same => h (same ▸ List.mem_cons_self)
    rw [List.cons_append, splitOn, if_neg hc, ih fun mem => h (List.mem_cons_of_mem _ mem)]

theorem join_cons_cons (sep : List Char) (l k : List Char) (ls : List (List Char)) :
    join sep (l :: k :: ls) = l ++ sep ++ join sep (k :: ls) := rfl

theorem join_cons {sep : List Char} (l : List Char) {ls : List (List Char)} (full : ls ≠ []) :
    join sep (l :: ls) = l ++ sep ++ join sep ls := by
  obtain ⟨k, ls, rfl⟩ := List.exists_cons_of_ne_nil full
  rfl

theorem join_append {sep : List Char} {ls ks : List (List Char)} (hl : ls ≠ []) (hk : ks ≠ []) :
    join sep (ls ++ ks) = join sep ls ++ sep ++ join sep ks := by
  induction ls with
  | nil => exact absurd rfl hl
  | cons l ls ih =>
    cases ls with
    | nil => exact join_cons l hk
    | cons m ls =>
      have further := ih (List.cons_ne_nil _ _)
      rw [List.cons_append, join_cons l (by simp), further, join_cons_cons]
      simp [List.append_assoc]

/-- Splitting reads joined pieces back. -/
theorem splitOn_join {ls : List (List Char)} (full : ls ≠ []) (free : ∀ l ∈ ls, sep ∉ l) :
    splitOn sep (join [sep] ls) = ls := by
  induction ls with
  | nil => exact absurd rfl full
  | cons l ls ih =>
    have hl := free l List.mem_cons_self
    cases ls with
    | nil => exact splitOn_of_not_mem hl
    | cons k ls =>
      have further := ih (List.cons_ne_nil _ _) fun m hm => free m (List.mem_cons_of_mem _ hm)
      rw [join_cons_cons, List.append_assoc, List.singleton_append, splitOn_append hl, further]

theorem not_mem_of_mem_splitOn {s l : List Char} (h : l ∈ splitOn sep s) : sep ∉ l := by
  induction s generalizing l with
  | nil =>
    obtain rfl : l = [] := by simpa [splitOn] using h
    simp
  | cons c s ih =>
    rw [splitOn] at h
    split at h
    · rcases List.mem_cons.mp h with rfl | later
      · simp
      · exact ih later
    · next hc =>
      cases hs : splitOn sep s with
      | nil => exact absurd hs (splitOn_ne_nil sep s)
      | cons piece pieces =>
        rw [hs] at h ih
        rcases List.mem_cons.mp h with rfl | later
        · intro mem
          rcases List.mem_cons.mp mem with rfl | inside
          · exact hc rfl
          · exact ih List.mem_cons_self inside
        · exact ih (List.mem_cons_of_mem _ later)

/-- The first of joined texts is followed by the same text, whatever it is. -/
theorem exists_join_cons (sep : List Char) (ls : List (List Char)) :
    ∃ r, ∀ l, join sep (l :: ls) = l ++ r := by
  cases ls with
  | nil => exact ⟨[], fun l => (List.append_nil l).symm⟩
  | cons k ls =>
    exact ⟨sep ++ join sep (k :: ls), fun l => by rw [join_cons_cons, List.append_assoc]⟩

theorem exists_join_concat (sep : List Char) (ls : List (List Char)) :
    ∃ r, ∀ l, join sep (ls ++ [l]) = r ++ l := by
  by_cases full : ls = []
  · subst full
    exact ⟨[], fun l => rfl⟩
  · exact ⟨join sep ls ++ sep, fun l => join_append full (List.cons_ne_nil _ _)⟩

theorem splitOn_append_left {u s x : List Char} {xs : List (List Char)} (hu : sep ∉ u)
    (h : splitOn sep s = x :: xs) : splitOn sep (u ++ s) = (u ++ x) :: xs := by
  have free : ∀ l ∈ (u ++ x) :: xs, sep ∉ l := by
    intro l hl mem
    rcases List.mem_cons.mp hl with rfl | later
    · rcases List.mem_append.mp mem with left | right
      · exact hu left
      · exact not_mem_of_mem_splitOn (h ▸ List.mem_cons_self) right
    · exact not_mem_of_mem_splitOn (h ▸ List.mem_cons_of_mem _ later) mem
  obtain ⟨r, hr⟩ := exists_join_cons [sep] xs
  have whole : u ++ s = join [sep] ((u ++ x) :: xs) := by
    rw [hr, ← join_splitOn sep s, h, hr, List.append_assoc]
  rw [whole, splitOn_join (List.cons_ne_nil _ _) free]

theorem splitOn_append_right {v s x : List Char} {xs : List (List Char)} (hv : sep ∉ v)
    (h : splitOn sep s = xs ++ [x]) : splitOn sep (s ++ v) = xs ++ [x ++ v] := by
  have free : ∀ l ∈ xs ++ [x ++ v], sep ∉ l := by
    intro l hl mem
    rcases List.mem_append.mp hl with earlier | last
    · exact not_mem_of_mem_splitOn (h ▸ List.mem_append_left _ earlier) mem
    · obtain rfl := List.mem_singleton.mp last
      rcases List.mem_append.mp mem with left | right
      · exact not_mem_of_mem_splitOn (h ▸ List.mem_append_right _ (List.mem_singleton_self x)) left
      · exact hv right
  obtain ⟨r, hr⟩ := exists_join_concat [sep] xs
  have whole : s ++ v = join [sep] (xs ++ [x ++ v]) := by
    rw [hr, ← join_splitOn sep s, h, hr, List.append_assoc]
  rw [whole, splitOn_join (by simp) free]

theorem mem_join {c : Char} {sep : List Char} {ls : List (List Char)} (h : c ∈ join sep ls) :
    c ∈ sep ∨ ∃ l ∈ ls, c ∈ l := by
  induction ls with
  | nil => cases h
  | cons l ls ih =>
    cases ls with
    | nil => exact .inr ⟨l, List.mem_cons_self, h⟩
    | cons k ls =>
      rw [join_cons_cons] at h
      rcases List.mem_append.mp h with left | right
      · rcases List.mem_append.mp left with first | between
        · exact .inr ⟨l, List.mem_cons_self, first⟩
        · exact .inl between
      · rcases ih right with between | ⟨m, hm, later⟩
        · exact .inl between
        · exact .inr ⟨m, List.mem_cons_of_mem _ hm, later⟩

theorem splitOnce?_append {l : List Char} (h : sep ∉ l) (r : List Char) :
    splitOnce? sep (l ++ sep :: r) = some (l, r) := by
  induction l with
  | nil => simp [splitOnce?]
  | cons c l ih =>
    have hc : c ≠ sep := fun same => h (same ▸ List.mem_cons_self)
    rw [List.cons_append, splitOnce?, if_neg hc, ih fun mem => h (List.mem_cons_of_mem _ mem)]
    rfl

theorem splitOnce?_of_not_mem {s : List Char} (h : sep ∉ s) : splitOnce? sep s = none := by
  induction s with
  | nil => rfl
  | cons c s ih =>
    have hc : c ≠ sep := fun same => h (same ▸ List.mem_cons_self)
    rw [splitOnce?, if_neg hc, ih fun mem => h (List.mem_cons_of_mem _ mem)]
    rfl

end Split

theorem stripEnd?_append (s ending : List Char) : stripEnd? ending (s ++ ending) = some s := by
  simp [stripEnd?]

theorem lines_join {ls : List (List Char)} {last : List Char} (free : ∀ l ∈ ls ++ [last], '\n' ∉ l)
    (full : last ≠ []) :
    lines (join ['\n'] (ls ++ [last])) = ls.map stripReturn ++ [last] := by
  unfold lines
  rw [splitOn_join (by simp) free]
  simp only [List.dropLast_concat, List.getLast?_append, List.getLast?_singleton, Option.some_or,
    Option.getD_some]
  cases last with
  | nil => exact absurd rfl full
  | cons c last => rfl

theorem trim_stripReturn (s : List Char) : trim (stripReturn s) = trim s := by
  unfold stripReturn
  split
  · next h =>
    obtain ⟨s, rfl⟩ := List.getLast?_eq_some_iff.mp h
    have gap : IsGap ['\r'] := by
      intro c hc
      rw [List.mem_singleton.mp hc]
      rfl
    rw [List.dropLast_concat]
    exact (trim_append_gaps isGap_nil gap s).symm
  · rfl

theorem trim_trimLeft (s : List Char) : trim (trimLeft s) = trim s := by
  obtain ⟨u, hu, hs⟩ := exists_trimLeft s
  conv => rhs; rw [hs]
  simpa using (trim_append_gaps hu isGap_nil (trimLeft s)).symm

/-! ### Lines with their ends -/

/-- The text of lines, each with a line end behind it. -/
def unlines (ls : List (List Char)) : List Char :=
  ls.flatMap (· ++ ['\n'])

theorem unlines_cons (l : List Char) (ls : List (List Char)) :
    unlines (l :: ls) = l ++ '\n' :: unlines ls := by
  simp [unlines]

theorem unlines_append (ls ks : List (List Char)) :
    unlines (ls ++ ks) = unlines ls ++ unlines ks := by
  simp [unlines]

theorem unlines_eq_join {ls : List (List Char)} (full : ls ≠ []) :
    unlines ls = join ['\n'] ls ++ ['\n'] := by
  induction ls with
  | nil => exact absurd rfl full
  | cons l ls ih =>
    cases ls with
    | nil => simp [unlines, join]
    | cons k ls => rw [unlines_cons, ih (List.cons_ne_nil _ _), join_cons_cons]; simp

theorem getLast?_unlines (ls : List (List Char)) :
    (unlines ls).getLast? = none ∨ (unlines ls).getLast? = some '\n' := by
  induction ls with
  | nil => exact .inl rfl
  | cons l ls ih =>
    rw [unlines_cons, List.getLast?_append, List.getLast?_cons, Option.some_or]
    rcases ih with none | newline
    · exact .inr (by rw [none]; rfl)
    · exact .inr (by rw [newline]; rfl)

/-- A place at the start of a line is the start of one of the lines, or stands behind them. -/
theorem exists_line_of_lineStart {ls : List (List Char)} {r u v : List Char}
    (free : ∀ l ∈ ls, '\n' ∉ l) (split : unlines ls ++ r = u ++ v)
    (short : u.length < (unlines ls).length)
    (start : u.getLast? = none ∨ u.getLast? = some '\n') : ∃ l ∈ ls, ∃ t, v = l ++ '\n' :: t := by
  induction ls generalizing u with
  | nil => exact absurd short (Nat.not_lt_zero _)
  | cons l ls ih =>
    have hl := free l List.mem_cons_self
    rw [unlines_cons, List.append_assoc, List.cons_append] at split
    rcases start with first | newline
    · obtain rfl : u = [] := List.getLast?_eq_none_iff.mp first
      exact ⟨l, List.mem_cons_self, unlines ls ++ r, split.symm⟩
    · obtain ⟨a, b, rfl, ha⟩ := List.eq_append_cons_of_mem (List.mem_of_getLast? newline)
      rw [List.append_assoc, List.cons_append] at split
      obtain ⟨rfl, further⟩ := split_unique hl ha split
      have start' : b.getLast? = none ∨ b.getLast? = some '\n' := by
        rw [List.getLast?_append, List.getLast?_cons, Option.some_or] at newline
        cases hb : b.getLast? with
        | none => exact .inl rfl
        | some x => exact .inr (by simpa [hb] using newline)
      have short' : b.length < (unlines ls).length := by
        simp only [unlines_cons, List.length_append, List.length_cons] at short
        omega
      obtain ⟨k, hk, t, rfl⟩ :=
        ih (fun k hk => free k (List.mem_cons_of_mem _ hk)) further short' start'
      exact ⟨k, List.mem_cons_of_mem _ hk, t, rfl⟩

/-- A word without line ends that a text begins with stands in the first line of the text. -/
theorem prefix_line {w l r : List Char} (hw : '\n' ∉ w) (h : w <+: l ++ '\n' :: r) : w <+: l := by
  obtain ⟨t, ht⟩ := h
  rcases List.append_eq_append_iff.mp ht with ⟨v, rfl, -⟩ | ⟨v, rfl, hv⟩
  · exact List.prefix_append w v
  · cases v with
    | nil => simp
    | cons x v =>
      obtain ⟨rfl, -⟩ := List.cons.inj hv
      exact absurd (by simp) hw

end Polyglot.Text

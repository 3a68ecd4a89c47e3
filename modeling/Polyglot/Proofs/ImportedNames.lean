import Polyglot.Imports
import Polyglot.Proofs.Forms
import Polyglot.Proofs.Keywords
import Polyglot.Proofs.Replacement
import Polyglot.Proofs.Sweep

/-!
The imports of a text are the names that it uses. A name is used where it stands apart from quotes
and words, and a module where a dot follows it (`isMatch_wordPattern`, `isMatch_modulePattern`); a
class is raised where its name follows the keyword (`raises_iff`).

Main statement: `ofText_exact`.
-/

namespace Polyglot

open Text

namespace Pattern

/-! ### Searches that take a name with what stands before it -/

theorem takes_chars (w : List Char) (s t : Site) :
    (seqAll (chars w)).Takes s t ↔ ∃ r, s.rest = w ++ r ∧ t = ⟨w.getLast?.or s.before, r⟩ := by
  induction w generalizing s with
  | nil =>
    constructor
    · rintro rfl
      exact ⟨s.rest, rfl, rfl⟩
    · rintro ⟨r, rfl, rfl⟩
      rfl
  | cons c w ih =>
    have first : (seqAll (chars (c :: w))).Takes =
        Relation.Comp (char (.single c)).Takes (seqAll (chars w)).Takes :=
      takes_seqAll_cons _ _
    rw [first]
    constructor
    · rintro ⟨_, ⟨d, r, hr, has, rfl⟩, further⟩
      obtain rfl : d = c := by simpa using has
      obtain ⟨r', rfl, rfl⟩ := (ih _).mp further
      exact ⟨r', hr, by rw [getLast?_cons_or]⟩
    · rintro ⟨r, hr, rfl⟩
      refine ⟨⟨some c, w ++ r⟩, ⟨c, w ++ r, hr, by simp, rfl⟩, (ih _).mpr ⟨r, rfl, ?_⟩⟩
      rw [getLast?_cons_or]

/-- A name at the start of the text or behind a character of a set, and then what else is asked
for. -/
def behind (set : CharSet) (name : List Char) (qs : List Pattern) : Pattern :=
  seqAll (group 1 (alt (look .textStart) (char set)) :: (chars name ++ qs))

theorem isMatch_behind {set : CharSet} {name s : List Char} {qs : List Pattern} :
    (behind set name qs).isMatch s = true ↔
      ∃ u v, s = u ++ (name ++ v) ∧ u.getLast?.all set.has = true ∧
        ∃ t, (seqAll qs).Takes ⟨(u ++ name).getLast?, v⟩ t := by
  rw [isMatch_iff_takes, behind, takes_seqAll_cons, takes_seqAll_append]
  constructor
  · rintro ⟨u, v, t, rfl, _, edge, _, word, further⟩
    obtain ⟨r, hr, rfl⟩ := (takes_chars _ _ _).mp word
    rcases edge with ⟨start, rfl⟩ | ⟨c, r', hv, has, rfl⟩
    · obtain rfl : u = [] := by simpa [Look.holds] using start
      obtain rfl : v = name ++ r := hr
      exact ⟨[], r, rfl, rfl, t, by simpa using further⟩
    · obtain rfl : v = c :: r' := hv
      obtain rfl : r' = name ++ r := hr
      refine ⟨u ++ [c], r, by simp, by simpa using has, t, ?_⟩
      rwa [List.getLast?_append, List.getLast?_concat]
  · rintro ⟨u, v, rfl, edge, t, further⟩
    rw [List.getLast?_append] at further
    rcases List.eq_nil_or_concat u with rfl | ⟨u, c, rfl⟩
    · exact ⟨[], name ++ v, t, rfl, ⟨none, name ++ v⟩, .inl ⟨rfl, rfl⟩, _,
        (takes_chars _ _ _).mpr ⟨v, rfl, rfl⟩, further⟩
    · rw [List.concat_eq_append, List.getLast?_concat] at edge further
      refine ⟨u, c :: (name ++ v), t,
        by simp, ⟨some c, name ++ v⟩, .inr ⟨c, name ++ v, rfl, edge, rfl⟩, _,
        (takes_chars _ _ _).mpr ⟨v, rfl, rfl⟩, further⟩

/-! ### All matches, one after another -/

section Blind

variable {p : Pattern} (tame : p.isTame = true) (blind : p.looks = false) {s : List Char}
include tame blind

theorem findAll_cons {c : Char} (h : p.matchAt none (c :: s) = none) :
    p.findAll (c :: s) = p.findAll s := by
  simp only [findAll, scan_eq_scanFrom, scanFrom, h]
  rw [scanFrom_eq_of_not_looks tame blind]
  rfl

theorem findAll_hit (solid : p.nullable = false) {m : Match}
    (h : p.matchAt none (m.text ++ s) = some m) : p.findAll (m.text ++ s) = m :: p.findAll s := by
  rw [findAll, findAll, scan_eq_scanFrom, scan_eq_scanFrom,
    scanFrom_hit false (text_ne_nil_of_matchAt solid h) h, scanFrom_adjacent solid,
    scanFrom_eq_of_not_looks tame blind]
  rfl

end Blind

theorem findAll_nil {p : Pattern} (solid : p.nullable = false) : p.findAll [] = [] := by
  rw [findAll, scan_nil solid]
  rfl

end Pattern

theorem nodup_eraseDups {α : Type} [BEq α] [LawfulBEq α] (xs : List α) : xs.eraseDups.Nodup := by
  induction h : xs.length using Nat.strong_induction_on generalizing xs with
  | _ n ih =>
    cases xs with
    | nil => exact List.nodup_nil
    | cons x xs =>
      rw [List.eraseDups_cons, List.nodup_cons]
      refine ⟨by simp [List.mem_eraseDups], ih _ ?_ _ rfl⟩
      rw [← h]
      exact Nat.lt_succ_of_le (List.length_filter_le _ _)

namespace Imports

open Pattern

/-! ### Names that a text uses -/

/-- A quote or a character of a word: next to it a name is no name, but a part of something else. -/
def clings (c : Char) : Bool :=
  c == '\'' || c == '"' || isWord c

/-- The text has the name, and nothing clings to it. -/
def Uses (s name : List Char) : Prop :=
  ∃ u v, s = u ++ (name ++ v) ∧ u.getLast?.any clings = false ∧ v.head?.any clings = false

/-- The text has the name with a dot behind it, and before it is nothing that clings to it and no
dot. -/
def Enters (s name : List Char) : Prop :=
  ∃ u v, s = u ++ (name ++ '.' :: v) ∧ u.getLast?.any (fun c => clings c || c == '.') = false

/-- Whether a text is a beginning, a word and a rest can be found out place by place. -/
theorem exists_split_iff (s w : List Char) (p : List Char → List Char → Bool) :
    (∃ u v, s = u ++ (w ++ v) ∧ p u v = true) ↔
      (List.range (s.length + 1)).any (fun i => w.isPrefixOf (s.drop i) &&
        p (s.take i) (s.drop (i + w.length))) = true := by
  simp only [List.any_eq_true, List.mem_range, Bool.and_eq_true, List.isPrefixOf_iff_prefix]
  constructor
  · rintro ⟨u, v, rfl, holds⟩
    refine ⟨u.length, by rw [List.length_append]; omega, by simp, ?_⟩
    rw [List.take_left, ← List.append_assoc, ← List.length_append, List.drop_left]
    exact holds
  · rintro ⟨i, -, ⟨v, here⟩, holds⟩
    refine ⟨s.take i, v, by rw [here, List.take_append_drop], ?_⟩
    rwa [← List.drop_drop, ← here, List.drop_left] at holds

instance (s name : List Char) : Decidable (Uses s name) :=
  decidable_of_iff _
    ((exists_split_iff s name fun u v => !u.getLast?.any clings && !v.head?.any clings).symm.trans
    (by simp only [Uses, Bool.and_eq_true, Bool.not_eq_true']))

instance (s name : List Char) : Decidable (Enters s name) :=
  decidable_of_iff _ ((exists_split_iff s (name ++ ['.']) fun u _ =>
    !u.getLast?.any (fun c => clings c || c == '.')).symm.trans
      (by simp only [Enters, Bool.not_eq_true', List.append_assoc, List.singleton_append]))

theorem has_clings (c : Char) : (CharSet.ofItems quotesAndWords).has c = clings c := by
  rw [Bool.eq_iff_iff]
  simp [quotesAndWords, CharSet.ofItems, clings, CharSet.has]

theorem isMatch_wordPattern (name : String) (s : List Char) :
    (wordPattern name).isMatch s = true ↔ Uses s name.toList := by
  have pattern : wordPattern name = behind (.compl (.ofItems quotesAndWords)) name.toList
      [group 2 (alt (noneOf quotesAndWords) (look .textEnd))] := rfl
  rw [pattern, isMatch_behind]
  refine exists_congr fun u => exists_congr fun v => and_congr_right fun _ => and_congr ?_ ?_
  · cases u.getLast? <;> simp [has_clings]
  · cases v with
    | nil => exact iff_of_true ⟨_, .inr ⟨rfl, rfl⟩⟩ rfl
    | cons c v =>
      constructor
      · rintro ⟨t, ⟨d, r, hr, has, -⟩ | ⟨ended, -⟩⟩
        · obtain ⟨rfl, rfl⟩ := List.cons.inj hr
          simpa [has_clings] using has
        · cases ended
      · intro free
        exact ⟨_, .inl ⟨c, v, rfl, by simpa [has_clings] using free, rfl⟩⟩

theorem isMatch_modulePattern (name : String) (s : List Char) :
    (modulePattern name).isMatch s = true ↔ Enters s name.toList := by
  have pattern : modulePattern name =
      behind (.compl (.ofItems (quotesAndWords ++ [.single '.']))) name.toList (chars ['.']) := rfl
  have has (c : Char) : (CharSet.ofItems (quotesAndWords ++ [.single '.'])).has c =
      (clings c || c == '.') := by
    rw [← has_clings, CharSet.ofItems, List.foldl_append, ← CharSet.ofItems, Bool.eq_iff_iff]
    simp
  rw [pattern, isMatch_behind]
  constructor
  · rintro ⟨u, v, rfl, front, t, dot⟩
    obtain ⟨r, rfl, -⟩ := (takes_chars _ _ _).mp dot
    refine ⟨u, r, rfl, ?_⟩
    cases h : u.getLast? <;> simp_all
  · rintro ⟨u, r, rfl, front⟩
    refine ⟨u, '.' :: r, rfl, ?_, _, (takes_chars _ _ _).mpr ⟨r, rfl, rfl⟩⟩
    cases h : u.getLast? <;> simp_all

/-! ### Classes that a text raises -/

/-- The text begins with the keyword, a blank and a capital. -/
def BeginsRaise (s : List Char) : Prop :=
  ∃ c r, s = "raise ".toList ++ c :: r ∧ c.isUpper = true

/-- The classes that a text raises, from left to right: the name behind the keyword is read up to
its end, and the search goes on behind it. -/
inductive Raises : List Char → List String → Prop where
  | nil : Raises [] []
  | name {c : Char} {w r : List Char} {names : List String} (capital : c.isUpper = true)
      (word : ∀ d ∈ w, isAsciiWord d = true) (stop : r.head?.any isAsciiWord = false)
      (rest : Raises r names) :
      Raises ("raise ".toList ++ (c :: w ++ r)) (String.ofList (c :: w) :: names)
  | skip {c : Char} {s : List Char} {names : List String} (no : ¬ BeginsRaise (c :: s))
      (rest : Raises s names) : Raises (c :: s) names

theorem has_capital (c : Char) : (CharSet.ofItems [.range 'A' 'Z']).has c = c.isUpper := by
  delta Char.isUpper
  simp [CharSet.ofItems, CharSet.has, Char.le_def]

def nameSet : CharSet :=
  .ofItems [.range 'A' 'Z', .range 'a' 'z', .range '0' '9', .single '_']

theorem has_nameSet (c : Char) : nameSet.has c = isAsciiWord c := by
  rw [Bool.eq_iff_iff]
  simp [nameSet, CharSet.ofItems, isAsciiWord, isAsciiLetter, isAsciiDigit, CharSet.has, or_comm]

theorem tame_raisedPattern : raisedPattern.isTame = true := by decide

theorem blind_raisedPattern : raisedPattern.looks = false := by decide

theorem solid_raisedPattern : raisedPattern.nullable = false := by decide

/-- What is matched is the keyword with the whole name behind it. -/
theorem matchAt_raisedPattern {c : Char} {w r : List Char} (capital : c.isUpper = true)
    (word : ∀ d ∈ w, isAsciiWord d = true) (stop : r.head?.any isAsciiWord = false) :
    raisedPattern.matchAt none ("raise ".toList ++ (c :: w ++ r)) =
      some ⟨"raise ".toList ++ (c :: w), [(1, c :: w)]⟩ := by
  have pattern : raisedPattern = seqAll (chars "raise ".toList ++
      [group 1 (seqAll [char (.ofItems [.range 'A' 'Z']), star true (char nameSet)])]) := rfl
  let start := Cursor.start none ("raise ".toList ++ (c :: w ++ r))
  let name := (start.past "raise ".toList).enter
  have here : start.rest = "raise ".toList ++ (c :: w ++ r) := rfl
  have there : name.rest = c :: (w ++ r) := Cursor.rest_past here
  have all : ∀ d ∈ w ++ [], nameSet.has d = true := by simpa [has_nameSet] using word
  obtain ⟨more, first⟩ := flatMap_ways_star_greedy
    (k := fun d => (seqAll []).ways ((start.past "raise ".toList).leave 1 d))
    (c := name.past [c]) (r := r)
    (by rw [Cursor.rest_past_cons there, List.append_nil]) all (by rw [funext has_nameSet, stop])
    (fun u full begins => absurd (List.prefix_nil.mp begins) full)
  rw [matchAt_eq_ways tame_raisedPattern, pattern, ways_chars_append here, ways_group_cons,
    ways_char_cons there (by rw [has_capital, capital])]
  change (((star true (char nameSet)).ways (name.past [c])).flatMap _).head?.map _ = _
  rw [first]
  rfl

theorem matchAt_raisedPattern_eq_none {s : List Char} (no : ¬ BeginsRaise s) :
    raisedPattern.matchAt none s = none := by
  rw [matchAt_eq_ways tame_raisedPattern, Option.map_eq_none_iff, List.head?_eq_none_iff,
    List.eq_nil_iff_forall_not_mem]
  intro e mem
  obtain ⟨r, hr, hpast, further⟩ := mem_ways_chars_append mem
  rw [ways_group_cons] at further
  obtain ⟨d, hd, -⟩ := List.mem_flatMap.mp further
  obtain ⟨c, r', hc, -, capital, -⟩ := mem_ways_char_cons hd
  refine no ⟨c, r', ?_, by rw [← has_capital, capital]⟩
  rw [← Cursor.rest_start none s, hr, ← hpast]
  exact congrArg _ hc

theorem raised_hit {c : Char} {w r : List Char} (capital : c.isUpper = true)
    (word : ∀ d ∈ w, isAsciiWord d = true) (stop : r.head?.any isAsciiWord = false) :
    raised ("raise ".toList ++ (c :: w ++ r)) = String.ofList (c :: w) :: raised r := by
  let m : Match := ⟨"raise ".toList ++ (c :: w), [(1, c :: w)]⟩
  have whole : "raise ".toList ++ (c :: w ++ r) = m.text ++ r := (List.append_assoc _ _ _).symm
  have hit : raisedPattern.matchAt none (m.text ++ r) = some m := by
    rw [← whole]
    exact matchAt_raisedPattern capital word stop
  rw [raised, whole, findAll_hit tame_raisedPattern blind_raisedPattern solid_raisedPattern hit]
  rfl

theorem raised_skip {c : Char} {s : List Char} (no : ¬ BeginsRaise (c :: s)) :
    raised (c :: s) = raised s := by
  rw [raised, findAll_cons tame_raisedPattern blind_raisedPattern
    (matchAt_raisedPattern_eq_none no), raised]

theorem raised_nil : raised [] = [] := by
  rw [raised, findAll_nil solid_raisedPattern, List.map_nil]

theorem raises_raised (s : List Char) : Raises s (raised s) := by
  induction h : s.length using Nat.strong_induction_on generalizing s with
  | _ n ih =>
    by_cases begins : BeginsRaise s
    · obtain ⟨c, r, rfl, capital⟩ := begins
      obtain ⟨w, r, rfl, word, stop⟩ := exists_run isAsciiWord r
      rw [← List.cons_append, raised_hit capital word stop]
      refine .name capital word stop (ih r.length ?_ r rfl)
      rw [← h, List.length_append, List.length_cons, List.length_append]
      omega
    · cases s with
      | nil =>
        rw [raised_nil]
        exact .nil
      | cons c s =>
        rw [raised_skip begins]
        exact .skip begins (ih s.length (by rw [← h]; simp) s rfl)

theorem Raises.eq_raised {s : List Char} {names : List String} (h : Raises s names) :
    names = raised s := by
  induction h with
  | nil => rw [raised_nil]
  | name capital word stop _ ih => rw [raised_hit capital word stop, ih]
  | skip no _ ih => rw [raised_skip no, ih]

/-- What a text raises is determined, and the scan finds it. -/
theorem raises_iff {s : List Char} {names : List String} : Raises s names ↔ names = raised s :=
  ⟨Raises.eq_raised, fun h => h ▸ raises_raised s⟩

/-- The imports of a text: the errors and constants that it uses and the modules that it enters,
each in the order of its list, and as missing the classes that it raises and that neither the
hierarchy nor the language knows. -/
theorem ofText_exact (h : Hierarchy) (s : String) :
    (ofText h s).errors = h.names.filter (fun name => decide (Uses s.toList name.toList)) ∧
      (ofText h s).precision =
      precisionConstants.filter (fun name => decide (Uses s.toList name.toList)) ∧
      (ofText h s).stdlib =
      stdlibModules.filter (fun name => decide (Enters s.toList name.toList)) ∧
      (ofText h s).missing.Pairwise (· < ·) ∧
      ∃ names, (∀ list, Raises s.toList list ↔ list = names) ∧
        ∀ name, name ∈ (ofText h s).missing ↔ name ∈ names ∧ name ∉ h.names ∧
          name ∉ builtinExceptions := by
  have uses (name : String) :
      (wordPattern name).isMatch s.toList = decide (Uses s.toList name.toList) := by
    rw [Bool.eq_iff_iff, isMatch_wordPattern, decide_eq_true_iff]
  have enters (name : String) :
      (modulePattern name).isMatch s.toList = decide (Enters s.toList name.toList) := by
    rw [Bool.eq_iff_iff, isMatch_modulePattern, decide_eq_true_iff]
  refine ⟨List.filter_congr fun name _ => uses name, List.filter_congr fun name _ => uses name,
    List.filter_congr fun name _ => enters name, pairwise_lt_sortBy
    (nodup_eraseDups _), raised s.toList,
    fun _ => raises_iff, fun name => ?_⟩
  rw [ofText, mem_sortBy, List.mem_eraseDups, List.mem_filter]
  simp [Hierarchy.contains]

end Imports

end Polyglot

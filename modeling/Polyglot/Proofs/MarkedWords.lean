import Polyglot.Proofs.Hits
import Polyglot.Proofs.Lines

/-!
Words of a text and sigils before them. A text is cut into its words and what stands between them,
and a sigil is a mark on a word. `mark` is what one rule does: it marks a name wherever it stands
alone, except right behind an occurrence that it has just marked, if only one character lies between
the two. That character is used up.

An occurrence that is passed by has a marked neighbour to its left (`covered_mark_self`), and marks
stay. So the next time no neighbour is in the way, and nothing is passed by (`done_mark_self`). Two
rounds of all names therefore mark what `markAll` marks at once (`round_round`).
-/

namespace Polyglot

namespace Sigil

open Text

/-- The characters that may stand before a variable. -/
def opens (c : Char) : Bool :=
  !isAsciiWord c && !(['$', '.', '>', '\'', '/'].contains c)

/-- The characters that may stand behind a variable. -/
def closes (c : Char) : Bool :=
  !isAsciiWord c && !(['\'', '/'].contains c)

/-- Whether one of the names stands alone at the beginning of a text, given the character before
it. The end of a text is not enough behind a name. -/
def stands (names : List String) (before : Option Char) (s : List Char) : Bool :=
  before.all opens &&
    names.any fun n => n.toList.isPrefixOf s && (s.drop n.toList.length).head?.any closes

/-- One sigil before each name that stands alone, and nothing else. -/
def insertAll (names : List String) : (before : Option Char) → List Char → List Char
  | _, [] => []
  | before, c :: s =>
    (if stands names before (c :: s) then ['$'] else []) ++ c :: insertAll names (some c) s

/-- A word, what stands between it and the word before it, and whether it has a sigil. -/
structure Segment where
  between : List Char
  marked : Bool
  word : List Char
  isName : IsAsciiName word
  isBetween : ∀ c ∈ between, isAsciiWord c = false

def Segment.sigil (u : Segment) : List Char :=
  if u.marked then ['$'] else []

/-- The text of segments, and of what stands behind the last word. -/
def textOf : List Segment → List Char → List Char
  | [], last => last
  | u :: us, last => u.between ++ (u.sigil ++ (u.word ++ textOf us last))

/-- The character behind a word that the segments follow. -/
def follow : List Segment → List Char → Option Char
  | [], last => last.head?
  | u :: _, _ => u.between.head?

/-- Whether a word stands alone, whatever word it is. -/
def Segment.isOpen (u : Segment) (behind : Option Char) : Bool :=
  u.between.getLast?.all opens && behind.any closes

/-- Whether a name stands alone as the word of a segment, and has no sigil. -/
def Segment.isSite (name : List Char) (u : Segment) (behind : Option Char) : Bool :=
  u.word == name && !u.marked && u.isOpen behind

def Segment.addMark (u : Segment) (more : Bool) : Segment :=
  { u with marked := u.marked || more }

/-- One rule, from left to right; `hit` says whether the word before has just been marked. -/
def mark (name : List Char) : (hit : Bool) → List Segment → List Char → List Segment
  | _, [], _ => []
  | hit, u :: us, last =>
    let now := u.isSite name (follow us last) && !(hit && u.between.length == 1)
    u.addMark now :: mark name now us last

/-- All names at once. -/
def markAll (names : List String) : List Segment → List Char → List Segment
  | [], _ => []
  | u :: us, last =>
    u.addMark (names.any (·.toList == u.word) && u.isOpen (follow us last)) :: markAll names us last

/-- One rule after another. -/
def round (names : List String) (us : List Segment) (last : List Char) : List Segment :=
  names.foldl (fun us n => mark n.toList false us last) us

section Marks

variable {name : List Char} {names : List String} {us : List Segment}
    {last : List Char} {hit : Bool}

@[simp] theorem follow_mark : follow (mark name hit us last) last = follow us last := by
  cases us <;> rfl

theorem Segment.addMark_addMark (u : Segment) (more more' : Bool) :
    (u.addMark more).addMark more' = u.addMark (more || more') := by
  simp only [addMark, Bool.or_assoc]

theorem Segment.addMark_of_marked {u : Segment} {more : Bool} (h : more = true → u.marked = true) :
    u.addMark more = u := by
  have same : (u.marked || more) = u.marked := by
    cases more with
    | false => exact Bool.or_false _
    | true => rw [h rfl, Bool.or_true]
  rw [addMark]
  congr

theorem Segment.addMark_false (u : Segment) : u.addMark false = u :=
  addMark_of_marked fun h => absurd h Bool.false_ne_true

/-- Marks leave the words where they are. -/
theorem apart_mark (h : ∀ u ∈ us, u.between ≠ []) :
    ∀ u ∈ mark name hit us last, u.between ≠ [] := by
  induction us generalizing hit with
  | nil => exact h
  | cons u us ih =>
    obtain ⟨first, rest⟩ := List.forall_mem_cons.mp h
    exact List.forall_mem_cons.mpr ⟨first, ih rest⟩

theorem marked_of_isSite {u : Segment} {behind : Option Char} (h : u.isSite name behind = true) :
    u.marked = false := by
  simp only [Segment.isSite, Bool.and_eq_true, Bool.not_eq_true'] at h
  exact h.1.2

/-- Marks take sites away and make no new ones. -/
theorem isSite_of_more {u : Segment} {behind : Option Char} {more : Bool}
    (h : (u.addMark more).isSite name behind = true) :
    u.isSite name behind = true ∧ more = false := by
  simp only [Segment.addMark, Segment.isSite, Segment.isOpen, Bool.and_eq_true, Bool.not_eq_true',
    Bool.or_eq_false_iff] at h ⊢
  exact ⟨⟨⟨h.1.1, h.1.2.1⟩, h.2⟩, h.1.2.2⟩

/-! ### What is left after one rule, and after the same rule again -/

/-- Each site of a name comes right behind a marked word. -/
def Covered (name : List Char) : (behindMark : Bool) → List Segment → List Char → Prop
  | _, [], _ => True
  | behindMark, u :: us, last =>
    (u.isSite name (follow us last) = true → behindMark = true ∧ u.between.length = 1) ∧
      Covered name u.marked us last

/-- There are no sites of a name. -/
def Done (name : List Char) : List Segment → List Char → Prop
  | [], _ => True
  | u :: us, last => u.isSite name (follow us last) = false ∧ Done name us last

theorem covered_mark_self {behindMark : Bool} (h : hit = true → behindMark = true) :
    Covered name behindMark (mark name hit us last) last := by
  induction us generalizing hit behindMark with
  | nil => trivial
  | cons u us ih =>
    refine ⟨fun site => ?_, ih fun now => by rw [Segment.addMark, now, Bool.or_true]⟩
    rw [follow_mark] at site
    obtain ⟨before, passed⟩ := isSite_of_more site
    rw [before, Bool.true_and, Bool.not_eq_false', Bool.and_eq_true] at passed
    exact ⟨h passed.1, beq_iff_eq.mp passed.2⟩

theorem covered_mark {other : List Char} {behindMark behindMark' : Bool}
    (h : Covered name behindMark us last) (more : behindMark = true → behindMark' = true) :
    Covered name behindMark' (mark other hit us last) last := by
  induction us generalizing hit behindMark behindMark' with
  | nil => trivial
  | cons u us ih =>
    refine ⟨fun site => ?_, ih h.2 fun marked => by rw [Segment.addMark, marked, Bool.true_or]⟩
    rw [follow_mark] at site
    obtain ⟨neighbour, single⟩ := h.1 (isSite_of_more site).1
    exact ⟨more neighbour, single⟩

/-- A word that is marked already is not marked again, so it is in nobody's way. -/
theorem done_mark_self {behindMark : Bool} (h : Covered name behindMark us last)
    (fresh : hit = true → behindMark = false) : Done name (mark name hit us last) last := by
  induction us generalizing hit behindMark with
  | nil => trivial
  | cons u us ih =>
    refine ⟨?_, ih h.2 fun now => marked_of_isSite (Bool.and_eq_true_iff.mp now).1⟩
    rw [follow_mark, ← Bool.not_eq_true]
    intro site
    obtain ⟨before, passed⟩ := isSite_of_more site
    rw [before, Bool.true_and, Bool.not_eq_false', Bool.and_eq_true] at passed
    exact absurd (h.1 before).1 (by rw [fresh passed.1]; exact Bool.false_ne_true)

theorem done_mark {other : List Char} (h : Done name us last) :
    Done name (mark other hit us last) last := by
  induction us generalizing hit with
  | nil => trivial
  | cons u us ih =>
    refine ⟨?_, ih h.2⟩
    rw [follow_mark, ← Bool.not_eq_true]
    intro site
    exact absurd (isSite_of_more site).1 (by rw [h.1]; exact Bool.false_ne_true)

/-- Nothing is left to do for a name that has no sites. -/
theorem mark_of_done (h : Done name us last) : mark name hit us last = us := by
  induction us generalizing hit with
  | nil => rfl
  | cons u us ih =>
    simp only [mark, h.1, Bool.false_and, Segment.addMark_false, ih h.2]

/-! ### Rounds -/

theorem round_cons (n : String) (names : List String) (us : List Segment) (last : List Char) :
    round (n :: names) us last = round names (mark n.toList false us last) last := rfl

theorem covered_round (h : Covered name false us last) :
    Covered name false (round names us last) last := by
  induction names generalizing us with
  | nil => exact h
  | cons n names ih => exact ih (covered_mark h id)

theorem done_round (h : Done name us last) : Done name (round names us last) last := by
  induction names generalizing us with
  | nil => exact h
  | cons n names ih => exact ih (done_mark h)

theorem covered_round_of_mem {n : String} (mem : n ∈ names) :
    Covered n.toList false (round names us last) last := by
  induction names generalizing us with
  | nil => cases mem
  | cons m names ih =>
    rcases List.mem_cons.mp mem with rfl | later
    · rw [round_cons]
      exact covered_round (covered_mark_self fun now => now)
    · exact ih later

theorem done_round_of_mem {n : String} (mem : n ∈ names) (h : Covered n.toList false us last) :
    Done n.toList (round names us last) last := by
  induction names generalizing us with
  | nil => cases mem
  | cons m names ih =>
    rcases List.mem_cons.mp mem with rfl | later
    · rw [round_cons]
      exact done_round (done_mark_self h fun now => absurd now Bool.false_ne_true)
    · exact ih later (covered_mark h id)

theorem round_of_done (h : ∀ n ∈ names, Done n.toList us last) : round names us last = us := by
  induction names with
  | nil => rfl
  | cons n names ih =>
    have first : mark n.toList false us last = us := mark_of_done (h n List.mem_cons_self)
    rw [round_cons, first]
    exact ih fun m hm => h m (List.mem_cons_of_mem _ hm)

/-- A rule marks nothing that is not marked in the end. -/
theorem markAll_mark {n : String} (mem : n ∈ names) :
    markAll names (mark n.toList hit us last) last = markAll names us last := by
  induction us generalizing hit with
  | nil => rfl
  | cons u us ih =>
    have listed (site : u.isSite n.toList (follow us last) = true) :
        (names.any (·.toList == u.word) && u.isOpen (follow us last)) = true := by
      simp only [Segment.isSite, Bool.and_eq_true, beq_iff_eq] at site
      simp only [Bool.and_eq_true, List.any_eq_true, beq_iff_eq]
      exact ⟨⟨n, mem, site.1.1.symm⟩, site.2⟩
    simp only [mark, markAll, follow_mark, ih, Segment.addMark_addMark]
    have absorbed : ∀ more listed : Bool, (more = true → listed = true) →
        (more || listed) = listed := by
      decide
    congr 2
    exact absorbed _ _ fun now => listed (Bool.and_eq_true_iff.mp now).1

theorem markAll_round {names' : List String} (sub : ∀ n ∈ names', n ∈ names) :
    markAll names (round names' us last) last = markAll names us last := by
  induction names' generalizing us with
  | nil => rfl
  | cons n names' ih =>
    rw [round_cons, ih fun m hm => sub m (List.mem_cons_of_mem _ hm)]
    exact markAll_mark (sub n List.mem_cons_self)

theorem markAll_of_done (h : ∀ n ∈ names, Done n.toList us last) : markAll names us last = us := by
  induction us with
  | nil => rfl
  | cons u us ih =>
    rw [markAll, ih fun n hn => (h n hn).2, Segment.addMark_of_marked]
    intro listed
    simp only [Bool.and_eq_true, List.any_eq_true, beq_iff_eq] at listed
    obtain ⟨⟨n, hn, same⟩, isOpen⟩ := listed
    have none := (h n hn).1
    simpa [Segment.isSite, same, isOpen] using none

/-- A third round finds nothing to do. -/
theorem done_round_round :
    ∀ n ∈ names, Done n.toList (round names (round names us last) last) last :=
  fun _ hn => done_round_of_mem hn (covered_round_of_mem hn)

/-- Two rounds mark every site, and no more than that. -/
theorem round_round : round names (round names us last) last = markAll names us last := by
  rw [← markAll_of_done done_round_round, markAll_round fun n hn => hn,
    markAll_round fun n hn => hn]

end Marks

/-! ### The segments of a text -/

/-- How a text lies in segments: only the first word can be at the start of the text. -/
structure IsCut (us : List Segment) (last : List Char) : Prop where
  apart : ∀ u ∈ us.tail, u.between ≠ []
  isBetween : ∀ c ∈ last, isAsciiWord c = false

theorem IsCut.mark {us : List Segment} {last : List Char} (cut : IsCut us last)
    (name : List Char) (hit : Bool) : IsCut (mark name hit us last) last := by
  cases us with
  | nil => exact cut
  | cons u us => exact ⟨apart_mark cut.apart, cut.isBetween⟩

theorem exists_segments (s : List Char) :
    ∃ us last, textOf us last = s ∧ IsCut us last ∧ ∀ u ∈ us, u.marked = false := by
  induction s with
  | nil => exact ⟨[], [], rfl, ⟨by simp, by simp⟩, by simp⟩
  | cons c s ih =>
    obtain ⟨us, last, rfl, cut, unmarked⟩ := ih
    cases word : isAsciiWord c with
    | true =>
      have alone : IsAsciiName [c] := ⟨List.cons_ne_nil _ _, by simpa using word⟩
      let fresh : Segment := ⟨[], false, [c], alone, by simp⟩
      cases us with
      | nil => exact ⟨[fresh], last, rfl, ⟨by simp, cut.isBetween⟩, by simp [fresh]⟩
      | cons u us =>
        have plain : u.sigil = [] := by simp [Segment.sigil, unmarked u List.mem_cons_self]
        by_cases adjacent : u.between = []
        · -- The character belongs to the first word.
          have longer : IsAsciiName (c :: u.word) :=
            ⟨List.cons_ne_nil _ _, List.forall_mem_cons.mpr ⟨word, u.isName.word⟩⟩
          refine ⟨⟨[], false, c :: u.word, longer, by simp⟩ :: us, last, ?_,
            ⟨cut.apart, cut.isBetween⟩, ?_⟩
          · rw [textOf, textOf, adjacent, plain]
            rfl
          · exact List.forall_mem_cons.mpr ⟨rfl, fun v hv => unmarked v (List.mem_cons_of_mem _ hv)⟩
        · refine ⟨fresh :: u :: us, last, rfl, ⟨?_, cut.isBetween⟩, ?_⟩
          · exact List.forall_mem_cons.mpr ⟨adjacent, cut.apart⟩
          · exact List.forall_mem_cons.mpr ⟨rfl, unmarked⟩
    | false =>
      cases us with
      | nil => exact ⟨[], c :: last, rfl, ⟨by simp, List.forall_mem_cons.mpr ⟨word, cut.isBetween⟩⟩,
        by simp⟩
      | cons u us =>
        refine ⟨{ u with
          between := c :: u.between
          isBetween := List.forall_mem_cons.mpr ⟨word, u.isBetween⟩ } :: us,
          last, rfl, ⟨cut.apart, cut.isBetween⟩, ?_⟩
        obtain ⟨first, rest⟩ := List.forall_mem_cons.mp unmarked
        exact List.forall_mem_cons.mpr ⟨first, rest⟩

/-! ### Names at the beginning of a text -/

/-- A text begins with a name, and with a character that may stand behind it. -/
def Begins (name s : List Char) : Prop :=
  ∃ d r, s = name ++ d :: r ∧ closes d = true

theorem not_isAsciiWord_of_closes {c : Char} (h : closes c = true) : isAsciiWord c = false := by
  simp only [closes, Bool.and_eq_true, Bool.not_eq_true'] at h
  exact h.1

section Begins

variable {name : List Char} (isName : IsAsciiName name)
include isName

theorem not_begins_cons {c : Char} (hc : isAsciiWord c = false) (s : List Char) :
    ¬ Begins name (c :: s) := by
  rintro ⟨d, r, same, -⟩
  obtain ⟨e, w, rfl⟩ := List.exists_cons_of_ne_nil isName.full
  obtain ⟨rfl, -⟩ := List.cons.inj same
  rw [isName.word c List.mem_cons_self] at hc
  cases hc

theorem begins_word_iff {w s : List Char} (hw : IsAsciiName w)
    (hs : s.head?.any isAsciiWord = false) :
    Begins name (w ++ s) ↔ w = name ∧ s.head?.any closes = true := by
  constructor
  · rintro ⟨d, r, same, hd⟩
    have stop : (d :: r).head?.any isAsciiWord = false := not_isAsciiWord_of_closes hd
    obtain ⟨rfl, rfl⟩ := run_unique hw.word isName.word hs stop same
    exact ⟨rfl, hd⟩
  · rintro ⟨rfl, behind⟩
    cases s with
    | nil => cases behind
    | cons d r => exact ⟨d, r, rfl, behind⟩

end Begins

theorem stands_iff {names : List String} {before : Option Char} {s : List Char} :
    stands names before s = true ↔ before.all opens = true ∧ ∃ n ∈ names, Begins n.toList s := by
  simp only [stands, Bool.and_eq_true, List.any_eq_true, List.isPrefixOf_iff_prefix]
  refine and_congr_right fun _ => exists_congr fun n => and_congr_right fun _ => ?_
  constructor
  · rintro ⟨⟨t, rfl⟩, behind⟩
    rw [List.drop_left] at behind
    cases t with
    | nil => cases behind
    | cons d r => exact ⟨d, r, rfl, behind⟩
  · rintro ⟨d, r, rfl, hd⟩
    rw [List.drop_left]
    exact ⟨List.prefix_append _ _, hd⟩

section Insert

variable {names : List String}

theorem insertAll_congr {names' : List String} (same : ∀ n, n ∈ names' ↔ n ∈ names)
    (before : Option Char) (s : List Char) :
    insertAll names' before s = insertAll names before s := by
  have alike (before : Option Char) (s : List Char) :
      stands names' before s = stands names before s := by
    rw [Bool.eq_iff_iff, stands_iff, stands_iff]
    simp only [same]
  induction s generalizing before with
  | nil => rfl
  | cons c s ih => rw [insertAll, insertAll, alike, ih]

theorem stands_of_between (isName : ∀ n ∈ names, IsAsciiName n.toList)
    {before : Option Char} {c : Char} (hc : isAsciiWord c = false) (s : List Char) :
    stands names before (c :: s) = false := by
  rw [← Bool.not_eq_true, stands_iff]
  rintro ⟨-, n, hn, begins⟩
  exact not_begins_cons (isName n hn) hc s begins

/-- A word stands alone if it is listed and its neighbours allow it. -/
theorem stands_word (isName : ∀ n ∈ names, IsAsciiName n.toList) {before : Option Char}
    {w s : List Char} (hw : IsAsciiName w) (hs : s.head?.any isAsciiWord = false) :
    stands names before (w ++ s) =
      (names.any (·.toList == w) && (before.all opens && s.head?.any closes)) := by
  rw [Bool.eq_iff_iff, stands_iff]
  simp only [Bool.and_eq_true, List.any_eq_true, beq_iff_eq]
  constructor
  · rintro ⟨left, n, hn, begins⟩
    obtain ⟨rfl, right⟩ := (begins_word_iff (isName n hn) hw hs).mp begins
    exact ⟨⟨n, hn, rfl⟩, left, right⟩
  · rintro ⟨⟨n, hn, rfl⟩, left, right⟩
    exact ⟨left, n, hn, (begins_word_iff hw hw hs).mpr ⟨rfl, right⟩⟩

theorem insertAll_between (isName : ∀ n ∈ names, IsAsciiName n.toList)
    {before : Option Char} {q : List Char} (hq : ∀ c ∈ q, isAsciiWord c = false) (s : List Char) :
    insertAll names before (q ++ s) = q ++ insertAll names (q.getLast?.or before) s := by
  induction q generalizing before with
  | nil => rfl
  | cons c q ih =>
    obtain ⟨hc, hq⟩ := List.forall_mem_cons.mp hq
    rw [List.cons_append, insertAll, stands_of_between isName hc _, ih hq, Pattern.getLast?_cons_or]
    rfl

/-- Inside of a word there are no sigils. -/
theorem insertAll_word {c : Char} (hc : isAsciiWord c = true) {w : List Char}
    (hw : ∀ d ∈ w, isAsciiWord d = true) (s : List Char) :
    ∃ b, insertAll names (some c) (w ++ s) = w ++ insertAll names (some b) s := by
  induction w generalizing c with
  | nil => exact ⟨c, rfl⟩
  | cons d w ih =>
    obtain ⟨hd, hw⟩ := List.forall_mem_cons.mp hw
    obtain ⟨b, rest⟩ := ih hd hw
    have closed : opens c = false := by simp [opens, hc]
    refine ⟨b, ?_⟩
    rw [List.cons_append, insertAll, rest]
    simp [stands, closed]

theorem insertAll_name {w : List Char} (hw : IsAsciiName w) (before : Option Char) (s : List Char) :
    ∃ b, insertAll names before (w ++ s) =
      (if stands names before (w ++ s) then ['$'] else []) ++
      (w ++ insertAll names (some b) s) := by
  obtain ⟨c, w, rfl⟩ := List.exists_cons_of_ne_nil hw.full
  obtain ⟨hc, rest⟩ := List.forall_mem_cons.mp hw.word
  obtain ⟨b, inside⟩ := insertAll_word hc rest s
  refine ⟨b, ?_⟩
  rw [List.cons_append, insertAll, inside]
  rfl

theorem textOf_head? {us : List Segment} {last : List Char} (apart : ∀ u ∈ us, u.between ≠ []) :
    (textOf us last).head? = follow us last := by
  cases us with
  | nil => rfl
  | cons u us =>
    obtain ⟨c, q, hq⟩ := List.exists_cons_of_ne_nil (apart u List.mem_cons_self)
    rw [textOf, follow, hq]
    rfl

theorem follow_any {us : List Segment} {last : List Char}
    (hlast : ∀ c ∈ last, isAsciiWord c = false) : (follow us last).any isAsciiWord = false := by
  have head {q : List Char} (hq : ∀ c ∈ q, isAsciiWord c = false) :
      q.head?.any isAsciiWord = false := by
    cases q with
    | nil => rfl
    | cons c q => exact hq c List.mem_cons_self
  cases us with
  | nil => exact head hlast
  | cons u us => exact head u.isBetween

theorem insertAll_textOf (isName : ∀ n ∈ names, IsAsciiName n.toList) {us : List Segment}
    {last : List Char} (cut : IsCut us last) (unmarked : ∀ u ∈ us, u.marked = false)
    {before : Option Char}
    (start : before = none ∨ ∀ u ∈ us, u.between ≠ []) :
    insertAll names before (textOf us last) = textOf (markAll names us last) last := by
  induction us generalizing before with
  | nil =>
    rw [textOf, ← List.append_nil last, insertAll_between isName cut.isBetween]
    rfl
  | cons u us ih =>
    have apart : ∀ v ∈ us, v.between ≠ [] := cut.apart
    have cut' : IsCut us last := ⟨fun v hv => apart v (List.mem_of_mem_tail hv), cut.isBetween⟩
    have unmarked' := (List.forall_mem_cons.mp unmarked).2
    have plain : u.sigil = [] := by simp [Segment.sigil, unmarked u List.mem_cons_self]
    have stop : (textOf us last).head?.any isAsciiWord = false := by
      rw [textOf_head? apart]
      exact follow_any cut.isBetween
    have left : (u.between.getLast?.or before).all opens = u.between.getLast?.all opens := by
      rcases start with rfl | apart
      · rw [Option.or_none]
      · rw [List.getLast?_eq_some_getLast (apart u List.mem_cons_self)]
        rfl
    have standing : stands names (u.between.getLast?.or before) (u.word ++ textOf us last) =
        (names.any (·.toList == u.word) && u.isOpen (follow us last)) := by
      rw [stands_word isName u.isName stop, left, textOf_head? apart, Segment.isOpen]
    have sigil : (u.addMark (names.any (·.toList == u.word) && u.isOpen (follow us last))).sigil =
        if stands names (u.between.getLast?.or before)
        (u.word ++ textOf us last) then ['$'] else [] := by
      rw [standing, Segment.sigil, Segment.addMark, unmarked u List.mem_cons_self, Bool.false_or]
    obtain ⟨b, word⟩ := insertAll_name u.isName (u.between.getLast?.or before) (textOf us last)
    rw [textOf, plain, insertAll_between isName u.isBetween, List.nil_append, word,
      ih cut' unmarked' (.inr apart), markAll, textOf, sigil]
    rfl

end Insert

end Sigil

end Polyglot

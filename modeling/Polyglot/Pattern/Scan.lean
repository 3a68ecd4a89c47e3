import Polyglot.Pattern.Needs
import Polyglot.Pattern.Search

/-!
Searching a whole text. `Pattern.scan` cuts the text into characters that no match touches and
into matches, from left to right and without overlap; finding, testing and replacing are read off
that list. An empty match right behind the match before it does not count.

`scanFrom` says what the pieces are. `searchFrom` finds them with the graph of the pattern, and
`scan_eq_scanFrom` says that these are the same.
-/

namespace Polyglot

/-- A match: the text it covers and the texts of its groups. -/
structure Match where
  text : List Char
  groups : List (Nat × List Char)
  deriving DecidableEq, Repr

namespace Match

/-- Group 0 is the whole match. -/
def group? (m : Match) (index : Nat) : Option (List Char) :=
  if index = 0 then some m.text else m.groups.lookup index

/-- A group that took no part in the match has the empty text. -/
def group (m : Match) (index : Nat) : List Char :=
  (m.group? index).getD []

def ofState (rest : List Char) (s : State) : Match :=
  ⟨rest.take s.count, s.groups.map fun g => (g.1, g.2.text)⟩

end Match

inductive Piece where
  | copy (c : Char)
  | hit (m : Match)
  deriving DecidableEq, Repr

namespace Piece

/-- The part of the text that the piece stands for. -/
def source : Piece → List Char
  | copy c => [c]
  | hit m => m.text

def match? : Piece → Option Match
  | copy _ => none
  | hit m => some m

end Piece

namespace Pattern

/-- The preferred match at a place. -/
def matchAt (p : Pattern) (before : Option Char) (rest : List Char) : Option Match :=
  (p.ends 0 (State.start before rest)).head?.map (Match.ofState rest)

/-- The pieces of a text from a place on, where `find` tells the match at a place. The first `skip`
characters belong to the match before; `adjacent` says that the place behind them is the end of that
match. -/
def scanFrom (find : Option Char → List Char → Option Match) : Option Char → (skip : Nat) →
    (adjacent : Bool) → List Char → List Piece
  | before, _, adjacent, [] =>
    match find before [] with
    | some m => if adjacent then [] else [.hit m]
    | none => []
  | _, skip + 1, adjacent, c :: rest => scanFrom find (some c) skip adjacent rest
  | before, 0, adjacent, c :: rest =>
    match find before (c :: rest) with
    | none => .copy c :: scanFrom find (some c) 0 false rest
    | some m =>
      if m.text.isEmpty then
        if adjacent then .copy c :: scanFrom find (some c) 0 false rest
        else .hit m :: .copy c :: scanFrom find (some c) 0 false rest
      else .hit m :: scanFrom find (some c) (m.text.length - 1) true rest

/-- The same by a search: `find` is given the number of characters before the place and the marks
left so far. -/
def searchFrom (find : Nat → Option Char → List Char → Marks → Option Match × Marks) : Marks →
    (offset : Nat) → Option Char → (skip : Nat) → (adjacent : Bool) → List Char → List Piece
  | marks, offset, before, _, adjacent, [] =>
    match (find offset before [] marks).1 with
    | some m => if adjacent then [] else [.hit m]
    | none => []
  | marks, offset, _, skip + 1, adjacent, c :: rest =>
    searchFrom find marks (offset + 1) (some c) skip adjacent rest
  | marks, offset, before, 0, adjacent, c :: rest =>
    match find offset before (c :: rest) marks with
    | (none, marks) => .copy c :: searchFrom find marks (offset + 1) (some c) 0 false rest
    | (some m, marks) =>
      if m.text.isEmpty then
        if adjacent then .copy c :: searchFrom find marks (offset + 1) (some c) 0 false rest
        else .hit m :: .copy c :: searchFrom find marks (offset + 1) (some c) 0 false rest
      else .hit m :: searchFrom find marks (offset + 1) (some c) (m.text.length - 1) true rest

/-- The match at a place of a text, sought in a graph after a look at the next character. The marks
at the end of a match are of no more use. -/
def matchFrom (entry : Branch) (table : Forks) (starts : Option CharSet) (fuel offset : Nat)
    (before : Option Char) (rest : List Char) (marks : Marks) : Option Match × Marks :=
  if mayStart starts rest then
    match explore table offset fuel [(entry, .start before rest)] marks with
    | (some s, marks) => (some (Match.ofState rest s), marks.clear (offset + s.count))
    | (none, marks) => (none, marks)
  else (none, marks)

/-- The pieces of a text. No search is made where no match is possible. -/
def scan (p : Pattern) (s : List Char) : List Piece :=
  if p.isPossible s then
    let (entry, table) := p.compile .done #[]
    searchFrom (matchFrom entry table p.starts? (fuelFor table s.length)) .none 0 none 0 false s
  else s.map .copy

/-- All matches from left to right. -/
def findAll (p : Pattern) (s : List Char) : List Match :=
  (p.scan s).filterMap Piece.match?

def find? (p : Pattern) (s : List Char) : Option Match :=
  (p.findAll s).head?

def isMatch (p : Pattern) (s : List Char) : Bool :=
  !(p.findAll s).isEmpty

def replaceAll (p : Pattern) (f : Match → List Char) (s : List Char) : List Char :=
  (p.scan s).flatMap fun
    | .copy c => [c]
    | .hit m => f m

/-- Replaces the first match only. -/
def replaceFirst (p : Pattern) (f : Match → List Char) (s : List Char) : List Char :=
  go (p.scan s)
where
  go : List Piece → List Char
    | [] => []
    | .copy c :: pieces => c :: go pieces
    | .hit m :: pieces => f m ++ pieces.flatMap Piece.source

def byteLength (s : List Char) : Nat :=
  s.foldl (fun bytes c => bytes + c.utf8Size) 0

/-- First and last byte offset of each match in the encoded text. -/
def spans (p : Pattern) (s : List Char) : List (Nat × Nat) :=
  go 0 (p.scan s)
where
  go : Nat → List Piece → List (Nat × Nat)
    | _, [] => []
    | offset, .copy c :: pieces => go (offset + c.utf8Size) pieces
    | offset, .hit m :: pieces =>
      (offset, offset + byteLength m.text) :: go (offset + byteLength m.text) pieces

/-- A match covers the beginning of the text from its place on. -/
theorem take_length_of_matchAt {p : Pattern} {before : Option Char} {rest : List Char} {m : Match}
    (h : p.matchAt before rest = some m) : rest.take m.text.length = m.text := by
  obtain ⟨t, ht, rfl⟩ := Option.map_eq_some_iff.mp h
  obtain ⟨w, hw, hcount, _⟩ := reaches_of_mem_ends (List.mem_of_mem_head? ht)
  simp only [State.start, Nat.zero_add] at hw hcount
  simp [Match.ofState, hcount, hw]

theorem matchAt_eq_none_of_not_mayStart {p : Pattern} {before : Option Char} {rest : List Char}
    (h : ¬ mayStart p.starts? rest = true) : p.matchAt before rest = none := by
  unfold matchAt
  cases hends : p.ends 0 (State.start before rest) with
  | nil => rfl
  | cons t ts => exact absurd (mayStart_of_mem_ends (hends ▸ List.mem_cons_self)) h

/-- The graph of a pattern explores the ends of its matches. -/
theorem explores_compile (p : Pattern) (s : State) :
    Explores (p.compile .done #[]).2 (p.compile .done #[]).1 s (p.ends 0 s) := by
  rw [compile_eq]
  have holds : Forks.Holds (#[] ++ (p.branches (#[] : Forks).size .done).toArray) 0
      (p.branches 0 .done) := fun j both h => by simpa using h
  simpa using explores_entry holds (f := fun t => [t]) fun t _ => Explores.done rfl rfl

theorem matchFrom_eq {p : Pattern} {offset length : Nat} {before : Option Char} {rest : List Char}
    {marks : Marks}
    (ready : marks.Ready (p.compile .done #[]).2 offset 0 length (.start before rest)) :
    (∃ m marks', p.matchAt before rest = some m ∧
      marks'.Ready (p.compile .done #[]).2 offset m.text.length length (.start before rest) ∧
      matchFrom (p.compile .done #[]).1 (p.compile .done #[]).2 p.starts?
        (fuelFor (p.compile .done #[]).2 length) offset before rest marks = (some m, marks')) ∨
    ∃ marks', p.matchAt before rest = none ∧
      marks'.Ready (p.compile .done #[]).2 offset 0 length (.start before rest) ∧
      matchFrom (p.compile .done #[]).1 (p.compile .done #[]).2 p.starts?
        (fuelFor (p.compile .done #[]).2 length) offset before rest marks = (none, marks') := by
  unfold matchFrom
  split
  · rcases explore_start (p.explores_compile _) ready with
      ⟨t, ts, marks', hends, ready', run⟩ | ⟨marks', hends, ready', run⟩
    · have spec : p.matchAt before rest = some (Match.ofState rest t) := by rw [matchAt, hends]; rfl
      refine .inl ⟨_, marks'.clear (offset + t.count), spec, ?_, by rw [run]; rfl⟩
      obtain ⟨w, hw, hcount, _⟩ := reaches_of_mem_ends (hends ▸ List.mem_cons_self : t ∈ p.ends 0 _)
      have length : (Match.ofState rest t).text.length = t.count := by
        simp only [State.start, Nat.zero_add] at hw hcount
        simp [Match.ofState, hcount, hw]
      rw [length]
      exact ready'
    · exact .inr ⟨marks', by rw [matchAt, hends]; rfl, ready', by rw [run]⟩
  · next never => exact .inr ⟨marks, matchAt_eq_none_of_not_mayStart never, ready, rfl⟩

/-- The search finds the pieces. -/
theorem searchFrom_eq_scanFrom {p : Pattern} {length offset skip : Nat} {before : Option Char}
    {adjacent : Bool} {marks : Marks} {s : List Char} (short : skip ≤ s.length)
    (ready : marks.Ready (p.compile .done #[]).2 offset skip length (.start before s)) :
    searchFrom (matchFrom (p.compile .done #[]).1 (p.compile .done #[]).2 p.starts?
        (fuelFor (p.compile .done #[]).2 length)) marks offset before skip adjacent s =
      scanFrom p.matchAt before skip adjacent s := by
  induction s generalizing offset skip before adjacent marks with
  | nil =>
    obtain rfl := Nat.le_zero.mp short
    simp only [searchFrom, scanFrom]
    rcases matchFrom_eq ready with ⟨m, _, spec, _, run⟩ | ⟨_, spec, _, run⟩ <;> rw [spec, run]
  | cons c rest ih =>
    cases skip with
    | succ skip => exact ih (Nat.le_of_succ_le_succ short) (ready.next (Nat.le_refl _))
    | zero =>
      simp only [searchFrom, scanFrom]
      rcases matchFrom_eq ready with ⟨m, marks', spec, ready', run⟩ | ⟨marks', spec, ready', run⟩
      · rw [spec, run]
        have covered : m.text.length ≤ rest.length + 1 := by
          have := congrArg List.length (take_length_of_matchAt spec)
          rw [List.length_take, List.length_cons] at this
          omega
        by_cases empty : m.text.isEmpty = true
        · have none : m.text.length = 0 := by simpa using empty
          rw [none] at ready'
          simp only [empty, ↓reduceIte]
          rw [ih (Nat.zero_le _) (ready'.next (Nat.zero_le _))]
        · have skipped :
              searchFrom (matchFrom (p.compile .done #[]).1 (p.compile .done #[]).2 p.starts?
                (fuelFor (p.compile .done #[]).2 length)) marks' (offset + 1) (some c)
                (m.text.length - 1) true rest =
              scanFrom p.matchAt (some c) (m.text.length - 1) true rest :=
            ih (by omega) (ready'.next (by omega))
          simp only [Bool.not_eq_true] at empty
          simp only [empty, Bool.false_eq_true, ↓reduceIte, skipped]
      · rw [spec, run]
        simp only [ih (Nat.zero_le _) (ready'.next (Nat.zero_le _))]

theorem scanFrom_source {find : Option Char → List Char → Option Match}
    (covers : ∀ before rest m, find before rest = some m → rest.take m.text.length = m.text)
    (before : Option Char) (skip : Nat) (adjacent : Bool) (s : List Char) :
    (scanFrom find before skip adjacent s).flatMap Piece.source = s.drop skip := by
  induction s generalizing before skip adjacent with
  | nil =>
    simp only [scanFrom, List.drop_nil]
    split
    · next m h =>
      have := covers before [] m h
      cases adjacent <;> simp_all [Piece.source]
    · rfl
  | cons c rest ih =>
    cases skip with
    | succ skip => simpa [scanFrom] using ih (some c) skip adjacent
    | zero =>
      have copied := ih (some c) 0 false
      simp only [List.drop_zero] at copied
      simp only [scanFrom, List.drop_zero]
      split
      · simp [Piece.source, copied]
      · next m h =>
        have start := covers before (c :: rest) m h
        split
        · next empty =>
          have : m.text = [] := List.isEmpty_iff.mp empty
          split <;> simp [Piece.source, copied, this]
        · next full =>
          cases htext : m.text with
          | nil => simp [htext] at full
          | cons d text =>
            rw [htext] at start
            simp only [List.length_cons, List.take_succ_cons, List.cons.injEq] at start
            simp only [List.flatMap_cons, Piece.source, htext, ih, List.length_cons,
              Nat.add_sub_cancel, List.cons_append, start.1]
            conv => rhs; rw [← List.take_append_drop text.length rest, start.2]

theorem scanFrom_of_not_isPossible {p : Pattern} {before : Option Char} {adjacent : Bool}
    {s : List Char} (h : p.isPossible s = false) :
    scanFrom p.matchAt before 0 adjacent s = s.map .copy := by
  have no (t : Option Char) (r : List Char) (hr : p.isPossible r = false) :
      p.matchAt t r = none := by
    rw [matchAt, ends_eq_nil_of_not_isPossible hr]
    rfl
  induction s generalizing before adjacent with
  | nil => simp [scanFrom, no before [] h]
  | cons c rest ih =>
    have later : p.isPossible rest = false := by
      cases hrest : p.isPossible rest
      · rfl
      · simp [isPossible_of_cons hrest] at h
    simp [scanFrom, no before (c :: rest) h, ih later]

/-- The search may as well be made always. -/
theorem scan_eq_scanFrom (p : Pattern) (s : List Char) :
    p.scan s = scanFrom p.matchAt none 0 false s := by
  unfold scan
  split
  · exact searchFrom_eq_scanFrom (Nat.zero_le _) (Marks.ready_none (Nat.le_refl _))
  · next h => exact (scanFrom_of_not_isPossible (by simpa using h)).symm

/-- The pieces put together are the text. -/
theorem scan_source (p : Pattern) (s : List Char) : (p.scan s).flatMap Piece.source = s := by
  rw [scan_eq_scanFrom, scanFrom_source fun _ _ _ => take_length_of_matchAt, List.drop_zero]

/-- A text without a match is left as it is. -/
theorem replaceAll_of_not_isMatch {p : Pattern} {f : Match → List Char} {s : List Char}
    (h : p.isMatch s = false) : p.replaceAll f s = s := by
  have none : ∀ piece ∈ p.scan s, piece.match? = none := by
    simpa [isMatch, findAll, List.filterMap_eq_nil_iff] using h
  conv => rhs; rw [← p.scan_source s]
  unfold replaceAll
  generalize p.scan s = pieces at none
  induction pieces with
  | nil => rfl
  | cons piece pieces ih =>
    rw [List.flatMap_cons, List.flatMap_cons, ih fun q hq => none q (List.mem_cons_of_mem _ hq)]
    cases piece with
    | copy c => rfl
    | hit m => exact absurd (none (.hit m) List.mem_cons_self) (by simp [Piece.match?])

end Pattern

end Polyglot

import Mathlib.Data.List.Induction
import Polyglot.Proofs.CamelCase

/-!
Where a conversion puts its underscores. Each of the three patterns begins with two letters or
digits that stand side by side, and the underscore goes between these two. An underscore is neither,
so a later pattern never splits where an earlier one has split, and the three together still put at
most one underscore between any two characters of a name (`Parted.trans`).

The patterns ask for an ASCII character first, so a match may as well be cut behind its first byte:
the cut never falls inside of a character (`splitAtByte?_eq`).
-/

namespace Polyglot

namespace Pattern

theorem eq_of_mem_ways_looks {tests : List Look} {c e : Cursor}
    (mem : e ∈ (seqAll (tests.map look)).ways c) : e = c := by
  induction tests with
  | nil => exact List.mem_singleton.mp mem
  | cons test tests ih =>
    rw [List.map_cons, ways_look_cons] at mem
    split at mem
    · exact ih mem
    · cases mem

/-- With nothing but tests behind a sequence of sets, a match is one character of each set. -/
theorem forall₂_text_of_matchAt (sets : List CharSet) (tests : List Look) {before : Option Char}
    {rest : List Char} {m : Match}
    (h : (seqAll (sets.map char ++ tests.map look)).matchAt before rest = some m) :
    List.Forall₂ (fun set d => set.has d = true) sets m.text := by
  have tame : (seqAll (sets.map char ++ tests.map look)).isTame = true := by simp [isTame]
  rw [matchAt_eq_ways tame] at h
  obtain ⟨e, first, rfl⟩ := Option.map_eq_some_iff.mp h
  obtain ⟨w, r, -, fits, further⟩ := mem_ways_sets.mp (List.mem_of_mem_head? first)
  rw [eq_of_mem_ways_looks further]
  exact fits

/-! ### Cutting at a byte -/

theorem byteLength_cons (c : Char) (s : List Char) :
    byteLength (c :: s) = c.utf8Size + byteLength s := by
  have behind (n : Nat) (s : List Char) :
      s.foldl (fun bytes c => bytes + c.utf8Size) n =
      n + s.foldl (fun bytes c => bytes + c.utf8Size) 0 := by
    induction s generalizing n with
    | nil => rfl
    | cons d s ih =>
      rw [List.foldl_cons, List.foldl_cons, ih (n + d.utf8Size), ih (0 + d.utf8Size),
        Nat.zero_add, Nat.add_assoc]
  rw [byteLength, List.foldl_cons, behind, Nat.zero_add]
  rfl

/-- What stands before and behind a byte offset of the encoded text. There is no answer if the
offset lies inside of a character or behind the end of the text. -/
def cutAtByte? : Nat → List Char → Option (List Char × List Char)
  | 0, s => some ([], s)
  | _ + 1, [] => none
  | n + 1, c :: s =>
    if c.utf8Size ≤ n + 1 then (cutAtByte? (n + 1 - c.utf8Size) s).map fun cut =>
      (c :: cut.1, cut.2)
    else none

theorem cutAtByte?_zero_eq_some_iff {s u v : List Char} :
    cutAtByte? 0 s = some (u, v) ↔ s = u ++ v ∧ byteLength u = 0 := by
  have start : cutAtByte? 0 s = some ([], s) := by
    cases s <;> rfl
  rw [start]
  constructor
  · intro h
    obtain ⟨rfl, rfl⟩ := Prod.mk.inj (Option.some.inj h)
    exact ⟨rfl, rfl⟩
  · rintro ⟨rfl, none⟩
    cases u with
    | nil => rfl
    | cons c u =>
      have positive := c.utf8Size_pos
      rw [byteLength_cons] at none
      omega

/-- A text is cut between two of its characters, where the first part has that many bytes. -/
theorem cutAtByte?_eq_some_iff {n : Nat} {s u v : List Char} :
    cutAtByte? n s = some (u, v) ↔ s = u ++ v ∧ byteLength u = n := by
  induction s generalizing n u with
  | nil =>
    cases n with
    | zero => exact cutAtByte?_zero_eq_some_iff
    | succ n =>
      constructor
      · intro h
        cases h
      · rintro ⟨whole, bytes⟩
        obtain ⟨rfl, -⟩ := List.append_eq_nil_iff.mp whole.symm
        cases bytes
  | cons c s ih =>
    cases n with
    | zero => exact cutAtByte?_zero_eq_some_iff
    | succ n =>
      rw [cutAtByte?]
      constructor
      · intro h
        split at h
        · next fits =>
          obtain ⟨⟨u, v⟩, cut, same⟩ := Option.map_eq_some_iff.mp h
          obtain ⟨rfl, rfl⟩ := Prod.mk.inj same
          obtain ⟨rfl, bytes⟩ := ih.mp cut
          exact ⟨rfl, by rw [byteLength_cons, bytes, Nat.add_sub_of_le fits]⟩
        · cases h
      · rintro ⟨whole, bytes⟩
        cases u with
        | nil => cases bytes
        | cons d u =>
          obtain ⟨rfl, rest⟩ := List.cons.inj whole
          rw [byteLength_cons] at bytes
          have fits : c.utf8Size ≤ n + 1 := Nat.le.intro bytes
          have cut : cutAtByte? (n + 1 - c.utf8Size) s = some (u, v) :=
            ih.mpr ⟨rest, Nat.eq_sub_of_add_eq' bytes⟩
          rw [if_pos fits, cut]
          rfl

end Pattern

namespace Name

open Pattern Text

/-- An ASCII letter or digit. -/
def isAlnum (c : Char) : Bool :=
  isAsciiLetter c || isAsciiDigit c

theorem utf8Size_of_isAlnum {c : Char} (h : isAlnum c = true) : c.utf8Size = 1 := by
  have word : isAsciiWord c = true := by
    rw [isAsciiWord]
    exact Bool.or_eq_true_iff.mpr (.inl h)
  exact forall_isAsciiWord (P := fun c => c.utf8Size = 1) (by decide) word

section Sets

variable {c : Char}

theorem isAlnum_of_small_or_figure (h : (CharSet.union small figure).has c = true) :
    isAlnum c = true := by
  rcases Bool.or_eq_true_iff.mp h with lower | digit
  · exact Bool.or_eq_true_iff.mpr (.inl (Bool.or_eq_true_iff.mpr (.inl lower)))
  · exact Bool.or_eq_true_iff.mpr (.inr digit)

theorem isAlnum_of_capital_or_figure (h : (CharSet.union capital figure).has c = true) :
    isAlnum c = true := by
  rcases Bool.or_eq_true_iff.mp h with upper | digit
  · exact Bool.or_eq_true_iff.mpr (.inl (Bool.or_eq_true_iff.mpr (.inr upper)))
  · exact Bool.or_eq_true_iff.mpr (.inr digit)

end Sets

/-- The text begins with two letters or digits. -/
def OpensPair (w : List Char) : Prop :=
  ∃ c d r, w = c :: d :: r ∧ isAlnum c = true ∧ isAlnum d = true

/-! ### Texts with underscores put in -/

/-- The second text is the first with underscores put in: at most one between any two neighbours,
only between letters and digits, and one wherever a word starts. -/
inductive Parted (starts : Char → Char → Prop) : List Char → List Char → Prop where
  | nil : Parted starts [] []
  | last (c : Char) : Parted starts [c] [c]
  | keep {c d : Char} {s t : List Char} (inside : ¬ starts c d) (rest : Parted starts (d :: s) t) :
      Parted starts (c :: d :: s) (c :: t)
  | part {c d : Char} {s t : List Char} (first : isAlnum c = true) (second : isAlnum d = true)
      (rest : Parted starts (d :: s) t) : Parted starts (c :: d :: s) (c :: '_' :: t)

namespace Parted

variable {starts : Char → Char → Prop} {s t u : List Char}

theorem exists_cons {c : Char} (h : Parted starts (c :: s) t) : ∃ r, t = c :: r := by
  cases h with
  | last => exact ⟨[], rfl⟩
  | keep => exact ⟨_, rfl⟩
  | part => exact ⟨_, rfl⟩

theorem cons {c : Char} (inside : ∀ d r, s = d :: r → ¬ starts c d) (h : Parted starts s t) :
    Parted starts (c :: s) (c :: t) := by
  cases s with
  | nil =>
    cases h
    exact .last c
  | cons d s => exact .keep (inside d s rfl) h

theorem append_left (w : List Char) (h : Parted (fun _ _ => False) s t) :
    Parted (fun _ _ => False) (w ++ s) (w ++ t) := by
  induction w with
  | nil => exact h
  | cons c w ih =>
    apply ih.cons
    intro d r _ never
    exact never

/-- Underscores that are put into a text with underscores do not stand beside these. -/
theorem trans (first : Parted starts s t) (second : Parted (fun _ _ => False) t u) :
    Parted starts s u := by
  induction first generalizing u with
  | nil =>
    cases second
    exact .nil
  | last c =>
    cases second
    exact .last c
  | keep inside rest ih =>
    obtain ⟨r, rfl⟩ := rest.exists_cons
    cases second with
    | keep _ further => exact .keep inside (ih further)
    | part hc hd further => exact .part hc hd (ih further)
  | part hc hd rest ih =>
    obtain ⟨r, rfl⟩ := rest.exists_cons
    cases second with
    | keep _ further =>
      cases further with
      | keep _ further => exact .part hc hd (ih further)
      | part mark _ _ => cases mark
    | part _ mark _ => cases mark

theorem mem {c : Char} (h : Parted starts s t) (hc : c ∈ t) : c ∈ s ∨ c = '_' := by
  induction h with
  | nil => cases hc
  | last d => exact .inl hc
  | keep _ _ ih =>
    rcases List.mem_cons.mp hc with rfl | later
    · exact .inl List.mem_cons_self
    · exact (ih later).imp_left (List.mem_cons_of_mem _)
  | part _ _ _ ih =>
    rcases List.mem_cons.mp hc with rfl | later
    · exact .inl List.mem_cons_self
    · rcases List.mem_cons.mp later with mark | later
      · exact .inr mark
      · exact (ih later).imp_left (List.mem_cons_of_mem _)

/-- Without the underscores the two texts are one. -/
theorem filter_eq (h : Parted starts s t) : t.filter (· ≠ '_') = s.filter (· ≠ '_') := by
  have step (c : Char) {x y : List Char} (same : x.filter (· ≠ '_') = y.filter (· ≠ '_')) :
      (c :: x).filter (· ≠ '_') = (c :: y).filter (· ≠ '_') := by
    rw [List.filter_cons, same, List.filter_cons]
  induction h with
  | nil => rfl
  | last c => rfl
  | keep _ _ ih => exact step _ ih
  | part _ _ _ ih => exact step _ ih

end Parted

/-! ### Splitting -/

/-- What a match becomes. -/
def partMatch (m : Match) : List Char :=
  m.text.take 1 ++ '_' :: m.text.drop 1

theorem splitAfterFirst_eq (p : Pattern) (s : List Char) :
    splitAfterFirst p s = (p.scan s).flatMap (putFor partMatch) := by
  rw [scan_eq_scanFrom]
  exact replaceAll_eq_replaceFrom p partMatch s

/-- The pieces of a scan as they are put together when matches are cut behind their first byte. -/
def cutPieces? : List Piece → Option (List Char)
  | [] => some []
  | .copy c :: pieces => (cutPieces? pieces).map (c :: ·)
  | .hit m :: pieces => do
    let cut ← cutAtByte? 1 m.text
    let rest ← cutPieces? pieces
    return cut.1 ++ '_' :: cut.2 ++ rest

def splitAtByte? (p : Pattern) (s : List Char) : Option (List Char) :=
  cutPieces? (p.scan s)

section Pieces

variable {pieces : List Piece} (pairs : ∀ m, Piece.hit m ∈ pieces → OpensPair m.text)
include pairs

theorem parted_pieces :
    Parted (fun _ _ => False) (pieces.flatMap Piece.source)
      (pieces.flatMap (putFor partMatch)) := by
  induction pieces with
  | nil => exact .nil
  | cons piece pieces ih =>
    have rest := ih fun m hm => pairs m (List.mem_cons_of_mem _ hm)
    rw [List.flatMap_cons, List.flatMap_cons]
    cases piece with
    | copy c => exact rest.append_left [c]
    | hit m =>
      obtain ⟨c, d, r, text, hc, hd⟩ := pairs m List.mem_cons_self
      rw [Piece.source, putFor, partMatch, text]
      exact .part hc hd (rest.append_left (d :: r))

/-- The first byte of a match is its first character. -/
theorem cutPieces?_eq : cutPieces? pieces = some (pieces.flatMap (putFor partMatch)) := by
  induction pieces with
  | nil => rfl
  | cons piece pieces ih =>
    have rest := ih fun m hm => pairs m (List.mem_cons_of_mem _ hm)
    cases piece with
    | copy c =>
      rw [cutPieces?, rest]
      rfl
    | hit m =>
      obtain ⟨c, d, r, text, hc, -⟩ := pairs m List.mem_cons_self
      have cut : cutAtByte? 1 m.text = some ([c], d :: r) := by
        apply cutAtByte?_eq_some_iff.mpr
        refine ⟨text, ?_⟩
        rw [byteLength_cons, utf8Size_of_isAlnum hc]
        rfl
      rw [cutPieces?, cut, rest, List.flatMap_cons, putFor, partMatch, text]
      rfl

end Pieces

/-- Every match begins with two letters or digits. -/
def IsPairing (p : Pattern) : Prop :=
  ∀ before rest m, p.matchAt before rest = some m → OpensPair m.text

namespace IsPairing

variable {p : Pattern}

theorem ofSets {a b : CharSet} (sets : List CharSet) (tests : List Look)
    (ha : ∀ c, a.has c = true → isAlnum c = true) (hb : ∀ c, b.has c = true → isAlnum c = true) :
    IsPairing (seqAll ((a :: b :: sets).map char ++ tests.map look)) := by
  intro before rest m found
  have fits := forall₂_text_of_matchAt (a :: b :: sets) tests found
  obtain ⟨c, w, hc, fits, text⟩ := List.forall₂_cons_left_iff.mp fits
  obtain ⟨d, r, hd, -, rfl⟩ := List.forall₂_cons_left_iff.mp fits
  exact ⟨c, d, r, text, ha c hc, hb d hd⟩

theorem opensPair_of_hit (h : IsPairing p) {s : List Char} (m : Match)
    (hit : Piece.hit m ∈ p.scan s) : OpensPair m.text := by
  obtain ⟨before, rest, found⟩ := exists_matchAt_of_hit hit
  exact h before rest m found

theorem parted (h : IsPairing p) (s : List Char) :
    Parted (fun _ _ => False) s (splitAfterFirst p s) := by
  have pieces := parted_pieces (h.opensPair_of_hit (s := s))
  rwa [scan_source, ← splitAfterFirst_eq] at pieces

theorem splitAtByte?_eq (h : IsPairing p) (s : List Char) :
    splitAtByte? p s = some (splitAfterFirst p s) := by
  rw [splitAfterFirst_eq]
  exact cutPieces?_eq h.opensPair_of_hit

end IsPairing

theorem isPairing_wordStart : IsPairing wordStartPattern := by
  apply IsPairing.ofSets [] []
  · intro c
    exact isAlnum_of_small_or_figure
  · intro c upper
    exact isAlnum_of_capital_or_figure (Bool.or_eq_true_iff.mpr (.inl upper))

theorem isPairing_acronym : IsPairing acronymPattern := by
  apply IsPairing.ofSets [small, .compl (.single '$')] []
  · intro c
    exact isAlnum_of_capital_or_figure
  · intro c
    exact isAlnum_of_capital_or_figure

theorem isPairing_lastDigit : IsPairing lastDigitPattern := by
  apply IsPairing.ofSets [] [.textEnd]
  · intro c lower
    exact isAlnum_of_small_or_figure (Bool.or_eq_true_iff.mpr (.inl lower))
  · intro c digit
    exact isAlnum_of_small_or_figure (Bool.or_eq_true_iff.mpr (.inr digit))

/-! ### Starts of words -/

/-- A word starts with the second character: a capital behind a small letter or a digit. -/
def StartsWord (c d : Char) : Prop :=
  (CharSet.union small figure).has c = true ∧ capital.has d = true

instance (c d : Char) : Decidable (StartsWord c d) :=
  inferInstanceAs (Decidable (_ ∧ _))

theorem not_startsWord_of_capital {c : Char} (h : capital.has c = true) (d : Char) :
    ¬ StartsWord c d := by
  rintro ⟨other, -⟩
  have word : isAsciiWord c = true := by
    rw [isAsciiWord, isAsciiLetter]
    exact Bool.or_eq_true_iff.mpr
      (.inl (Bool.or_eq_true_iff.mpr (.inl (Bool.or_eq_true_iff.mpr (.inr h)))))
  have apart : capital.has c = true → (CharSet.union small figure).has c = false :=
    forall_isAsciiWord (P := fun c => capital.has c = true →
      (CharSet.union small figure).has c = false) (by decide) word
  rw [apart h] at other
  cases other

theorem exists_of_matchAt_wordStart {before : Option Char} {s : List Char} {m : Match}
    (h : wordStartPattern.matchAt before s = some m) :
    ∃ c d r, s = c :: d :: r ∧ StartsWord c d := by
  have fits := forall₂_text_of_matchAt [.union small figure, capital] [] h
  obtain ⟨c, w, hc, fits, text⟩ := List.forall₂_cons_left_iff.mp fits
  obtain ⟨d, r, hd, last, rfl⟩ := List.forall₂_cons_left_iff.mp fits
  cases last
  have begins := take_length_of_matchAt h
  rw [text] at begins
  have whole : [c, d] ++ s.drop 2 = s := begins ▸ List.take_append_drop 2 s
  exact ⟨c, d, s.drop 2, whole.symm, hc, hd⟩

theorem matchAt_wordStart {c d : Char} (h : StartsWord c d) (before : Option Char) (s : List Char) :
    wordStartPattern.matchAt before (c :: d :: s) = some ⟨[c, d], []⟩ := by
  have tame : wordStartPattern.isTame = true := rfl
  have first : (Cursor.start before (c :: d :: s)).rest = c :: (d :: s) := rfl
  rw [matchAt_eq_ways tame, wordStartPattern, ways_char_cons first h.1]
  change Option.map _ ((char capital).ways _).head? = _
  rw [ways_char (Cursor.rest_past_cons first) h.2]
  rfl

/-- An underscore is put before the start of every word. -/
theorem parted_wordStart (s : List Char) :
    Parted StartsWord s (splitAfterFirst wordStartPattern s) := by
  have tame : wordStartPattern.isTame = true := rfl
  have blind : wordStartPattern.looks = false := rfl
  have solid : wordStartPattern.nullable = false := rfl
  have none {s : List Char} (h : ∀ c d r, s = c :: d :: r → ¬ StartsWord c d) :
      wordStartPattern.matchAt none s = none := by
    cases found : wordStartPattern.matchAt none s with
    | none => rfl
    | some m =>
      obtain ⟨c, d, r, whole, starts⟩ := exists_of_matchAt_wordStart found
      exact absurd starts (h c d r whole)
  induction s using List.twoStepInduction with
  | nil =>
    rw [splitAfterFirst, replaceAll_nil solid]
    exact .nil
  | singleton c =>
    rw [splitAfterFirst, replaceAll_cons tame blind (none (by simp)), replaceAll_nil solid]
    exact .last c
  | cons_cons c d s ih ih' =>
    by_cases starts : StartsWord c d
    · have split : splitAfterFirst wordStartPattern (c :: d :: s) =
          c :: '_' :: d :: splitAfterFirst wordStartPattern s :=
        replaceAll_hit (f := partMatch) (m := ⟨[c, d], []⟩) tame blind solid
          (matchAt_wordStart starts .none s)
      have rest : Parted StartsWord (d :: s) (d :: splitAfterFirst wordStartPattern s) := by
        apply ih.cons
        intro e r _
        exact not_startsWord_of_capital starts.2 e
      have alnum := isAlnum_of_small_or_figure starts.1
      have alnum' := isAlnum_of_capital_or_figure (Bool.or_eq_true_iff.mpr (.inl starts.2))
      rw [split]
      exact .part alnum alnum' rest
    · have copied : splitAfterFirst wordStartPattern (c :: d :: s) =
          c :: splitAfterFirst wordStartPattern (d :: s) := by
        apply replaceAll_cons tame blind
        apply none
        intro c' d' r same
        obtain ⟨rfl, further⟩ := List.cons.inj same
        obtain ⟨rfl, -⟩ := List.cons.inj further
        exact starts
      rw [copied]
      exact .keep starts (ih' d)

/-- The three patterns together. -/
theorem parted_splitWords (s : List Char) : Parted StartsWord s (splitWords s) :=
  ((parted_wordStart s).trans (isPairing_acronym.parted _)).trans (isPairing_lastDigit.parted _)

/-! ### Conversion -/

/-- A text that is not empty, of capitals, digits and underscores. -/
structure IsAllCaps (s : List Char) : Prop where
  full : s ≠ []
  caps : ∀ c ∈ s, (CharSet.union capital (.union figure (.single '_'))).has c = true

instance (s : List Char) : Decidable (IsAllCaps s) :=
  decidable_of_iff
    ((!s.isEmpty && s.all (CharSet.union capital (.union figure (.single '_'))).has) = true) <| by
    simp only [Bool.and_eq_true, Bool.not_eq_true', List.isEmpty_eq_false_iff, List.all_eq_true]
    exact ⟨fun h => ⟨h.1, h.2⟩, fun h => ⟨h.full, h.caps⟩⟩

theorem isMatch_allCaps_iff {s : List Char} : allCapsPattern.isMatch s = true ↔ IsAllCaps s := by
  constructor
  · intro found
    obtain ⟨u, v, rfl, here⟩ := isMatch_iff.mp found
    obtain ⟨e, mem⟩ := (isSome_matchAt_iff (p := allCapsPattern) rfl).mp here
    rw [allCapsPattern, ways_look_cons] at mem
    split at mem
    · next start =>
      have first : u.getLast? = none := Option.isNone_iff_eq_none.mp start
      obtain rfl := List.getLast?_eq_none_iff.mp first
      obtain ⟨w, r, full, whole, behind, caps, mem⟩ := mem_ways_plus_cons mem
      rw [ways_look_cons, behind] at mem
      cases r with
      | nil =>
        rw [List.append_nil] at whole
        have same : v = w := whole
        rw [List.nil_append, same]
        exact ⟨full, caps⟩
      | cons c r => cases mem
    · cases mem
  · intro h
    exact isMatch_allCaps h.full h.caps

/-- The conversion with matches cut behind their first byte. -/
def underscoredBytes? (s : List Char) : Option (List Char) :=
  if allCapsPattern.isMatch s then some s
  else do
    let words ← splitAtByte? wordStartPattern s
    let words ← splitAtByte? acronymPattern words
    let words ← splitAtByte? lastDigitPattern words
    return lowercase words

theorem underscoredBytes?_eq (s : List Char) : underscoredBytes? s = some (underscoredChars s) := by
  rw [underscoredBytes?, underscoredChars]
  split
  · rfl
  · simp only [isPairing_wordStart.splitAtByte?_eq, isPairing_acronym.splitAtByte?_eq,
      isPairing_lastDigit.splitAtByte?_eq, Option.bind_eq_bind, Option.bind_some]
    rfl

/-- The lowercase of an ASCII text has the underscores of the text and no others. -/
theorem filter_lowercase {s : List Char} (ascii : ∀ c ∈ s, c.toNat < 128) :
    (lowercase s).filter (· ≠ '_') = lowercase (s.filter (· ≠ '_')) := by
  have kept : ∀ c ∈ s.filter (· ≠ '_'), c.toNat < 128 := by
    intro c hc
    exact ascii c (List.mem_of_mem_filter hc)
  rw [lowercase, lowercaseAfter_eq_map [] ascii, lowercase,
    lowercaseAfter_eq_map [] kept, List.filter_map]
  congr 1
  apply List.filter_congr
  intro c hc
  have same : lowerChar c = '_' ↔ c = '_' :=
    forall_ascii (P := fun c => lowerChar c = '_' ↔ c = '_') (by decide) (ascii c hc)
  simp [same]

/-- A conversion never cuts a character. A name all in capitals stays; any other becomes the
lowercase of the name with underscores put in, so that in ASCII the two differ by underscores and
case only. -/
theorem underscored_inserts (s : String) :
    underscoredBytes? s.toList = some (underscored s).toList ∧
    (IsAllCaps s.toList → underscored s = s) ∧
    (¬ IsAllCaps s.toList →
      (∃ t, Parted StartsWord s.toList t ∧ (underscored s).toList = lowercase t) ∧
      ((∀ c ∈ s.toList, c.toNat < 128) →
        (underscored s).toList.filter (· ≠ '_') = lowercase (s.toList.filter (· ≠ '_')))) := by
  have chars : (underscored s).toList = underscoredChars s.toList := String.toList_ofList
  refine ⟨?_, ?_, ?_⟩
  · rw [chars, underscoredBytes?_eq]
  · intro caps
    have same : underscoredChars s.toList = s.toList := by
      rw [underscoredChars_eq, if_pos (isMatch_allCaps_iff.mpr caps)]
    rw [underscored, same, String.ofList_toList]
  · intro other
    have lowered : (underscored s).toList = lowercase (splitWords s.toList) := by
      rw [chars, underscoredChars_eq, if_neg (isMatch_allCaps_iff.not.mpr other)]
    have parted := parted_splitWords s.toList
    refine ⟨⟨splitWords s.toList, parted, lowered⟩, ?_⟩
    intro ascii
    have ascii' : ∀ c ∈ splitWords s.toList, c.toNat < 128 := by
      intro c hc
      rcases parted.mem hc with old | rfl
      · exact ascii c old
      · decide
    rw [lowered, filter_lowercase ascii', parted.filter_eq]

theorem underscored_inserts_orderBook :
    underscored "MAX_L2" = "MAX_L2" ∧
    ((∃ t, Parted StartsWord "_fetchL2OrderBook".toList t ∧
        (underscored "_fetchL2OrderBook").toList = lowercase t) ∧
      (underscored "_fetchL2OrderBook").toList.filter (· ≠ '_') =
        lowercase ("_fetchL2OrderBook".toList.filter (· ≠ '_'))) := by
  obtain ⟨-, caps, -⟩ := underscored_inserts "MAX_L2"
  obtain ⟨-, -, other⟩ := underscored_inserts "_fetchL2OrderBook"
  obtain ⟨parted, ascii⟩ := other (by decide)
  have plain : "_fetchL2OrderBook".toList.all (fun c => decide (c.toNat < 128)) = true := by decide
  refine ⟨caps (by decide), parted, ascii ?_⟩
  intro c hc
  exact of_decide_eq_true (List.all_eq_true.mp plain c hc)

end Name

end Polyglot

import Polyglot.Proofs.Lines
import Polyglot.Proofs.Replacement
import Polyglot.Render.PythonText

/-!
Dropping the empty lines of a text. A match of the pattern begins at the end of a line and takes the
blank lines behind it, up to the end of the last of them. The blanks before the first character of
the next line are given back, since no line ends among them (`matchAt_emptyLinesPattern`). So a scan
copies the first line whatever it is, and of the others those that are not blank.
-/

namespace Polyglot.Render.Python

open Pattern Text

/-- Lines, each behind a line feed. -/
def leads (ls : List (List Char)) : List Char :=
  ls.flatMap ('\n' :: ·)

theorem leads_cons (l : List Char) (ls : List (List Char)) :
    leads (l :: ls) = '\n' :: (l ++ leads ls) := rfl

theorem leads_append (ls ks : List (List Char)) : leads (ls ++ ks) = leads ls ++ leads ks :=
  List.flatMap_append

theorem join_eq_append_leads (l : List Char) (ls : List (List Char)) :
    join ['\n'] (l :: ls) = l ++ leads ls := by
  induction ls generalizing l with
  | nil => exact (List.append_nil l).symm
  | cons k ls ih =>
    rw [join_cons_cons, ih, leads_cons, List.append_assoc]
    rfl

/-- The line has a character that is not blank. -/
def isFilled (l : List Char) : Bool :=
  l.any (!isBlank ·)

theorem isGap_of_not_isFilled {l : List Char} (h : isFilled l = false) : IsGap l := by
  intro c hc
  have blank := List.any_eq_false.mp h c hc
  simpa using blank

theorem not_isGap_of_isFilled {l : List Char} (h : isFilled l = true) : ¬ IsGap l := by
  intro gap
  obtain ⟨c, hc, ink⟩ := List.any_eq_true.mp h
  rw [gap c hc] at ink
  cases ink

theorem isGap_leads {ls : List (List Char)} (h : ∀ l ∈ ls, isFilled l = false) :
    IsGap (leads ls) := by
  intro c hc
  obtain ⟨l, hl, mem⟩ := List.mem_flatMap.mp hc
  rcases List.mem_cons.mp mem with rfl | inside
  · rfl
  · exact isGap_of_not_isFilled (h l hl) c inside

/-! ### Matches -/

theorem isTame_emptyLinesPattern : emptyLinesPattern.isTame = true := rfl

theorem holds_lineEnd_of_ne {c : Char} (h : c ≠ '\n') (before : Option Char) (r : List Char) :
    Look.lineEnd.holds before (c :: r) = false := by
  simp [Look.holds, h]

theorem matchAt_emptyLinesPattern_of_ne {c : Char} (h : c ≠ '\n') (before : Option Char)
    (r : List Char) : emptyLinesPattern.matchAt before (c :: r) = none := by
  have stuck : emptyLinesPattern.ways (.start before (c :: r)) = [] := by
    rw [emptyLinesPattern, ways_look_cons, Cursor.before_start, Cursor.rest_start,
      holds_lineEnd_of_ne h]
    rfl
  rw [matchAt_eq_ways isTame_emptyLinesPattern, stuck]
  rfl

/-- The text ends, or a line follows that is not blank. -/
def IsNext (r : List Char) : Prop :=
  r = [] ∨ ∃ u c t, r = '\n' :: (u ++ c :: t) ∧ IsGap u ∧ '\n' ∉ u ∧ isBlank c = false

theorem isNext_leads {l : List Char} (ls : List (List Char)) (filled : isFilled l = true)
    (line : '\n' ∉ l) : IsNext (leads (l :: ls)) := by
  obtain ⟨u, c, t, rfl, gap, hc⟩ := exists_first_of_not_isGap (not_isGap_of_isFilled filled)
  refine .inr ⟨u, c, t ++ leads ls, ?_, gap, ?_, hc⟩
  · rw [leads_cons, List.append_assoc, List.cons_append]
  · intro mem
    exact line (List.mem_append_left _ mem)

namespace IsNext

variable {r : List Char}

theorem holds (h : IsNext r) (before : Option Char) : Look.lineEnd.holds before r = true := by
  rcases h with rfl | ⟨u, c, t, rfl, -⟩
  · rfl
  · rfl

/-- Among the blanks that follow, a line ends only before the first of them. -/
theorem exists_run (h : IsNext r) :
    ∃ v t, r = v ++ t ∧ IsGap v ∧ t.head?.any CharSet.blank.has = false ∧
      ∀ x y before, x ≠ [] → x ++ y = v → Look.lineEnd.holds before (y ++ t) = false := by
  rcases h with rfl | ⟨u, c, t, rfl, gap, line, ink⟩
  · refine ⟨[], [], rfl, isGap_nil, rfl, ?_⟩
    intro x y before full same
    exact absurd (List.append_eq_nil_iff.mp same).1 full
  · refine ⟨'\n' :: u, c :: t, rfl, ?_, ink, ?_⟩
    · intro d hd
      rcases List.mem_cons.mp hd with rfl | later
      · rfl
      · exact gap d later
    · intro x y before full same
      obtain ⟨d, x, rfl⟩ := List.exists_cons_of_ne_nil full
      obtain ⟨-, rfl⟩ := List.cons.inj same
      cases y with
      | nil =>
        apply holds_lineEnd_of_ne
        rintro rfl
        cases ink
      | cons e y =>
        apply holds_lineEnd_of_ne
        rintro rfl
        exact line (List.mem_append_right x List.mem_cons_self)

end IsNext

/-- A match takes the blank lines up to the next line that is not blank. -/
theorem matchAt_emptyLinesPattern (before : Option Char) {w r : List Char} (gap : IsGap w)
    (first : w = [] ∨ ∃ v, w = '\n' :: v) (next : IsNext r) :
    emptyLinesPattern.matchAt before (w ++ r) = some ⟨w, []⟩ := by
  have here : Look.lineEnd.holds before (w ++ r) = true := by
    rcases first with rfl | ⟨v, rfl⟩
    · exact next.holds before
    · rfl
  have ending (c : Cursor) : (seqAll [look .lineEnd]).ways c =
      if Look.lineEnd.holds c.before c.rest then [c] else [] := ways_look .lineEnd c
  have stays : (seqAll [look .lineEnd]).ways ((Cursor.start before (w ++ r)).past w) =
      [(Cursor.start before (w ++ r)).past w] := by
    rw [ending, Cursor.rest_past rfl, next.holds, if_pos rfl]
  obtain ⟨v, t, rfl, blank, stop, inside⟩ := next.exists_run
  have all : ∀ d ∈ w ++ v, CharSet.blank.has d = true := gap.append blank
  -- The run of blanks is given back character by character until a line ends.
  obtain ⟨more, run⟩ := flatMap_ways_star_greedy (k := (seqAll [look .lineEnd]).ways)
    (c := .start before (w ++ (v ++ t))) (List.append_assoc w v t).symm all stop
    (by
      rintro x full ⟨y, same⟩
      have rest : ((Cursor.start before (w ++ (v ++ t))).past (w ++ x)).rest = y ++ t := by
        apply Cursor.rest_past
        rw [Cursor.rest_start, ← same]
        simp
      rw [ending, rest, inside x y _ full same]
      rfl)
  rw [stays] at run
  rw [matchAt_eq_ways isTame_emptyLinesPattern, emptyLinesPattern, ways_look_cons,
    Cursor.before_start, Cursor.rest_start, here, if_pos rfl, ways_seqAll_cons, blanks, run]
  rfl

/-! ### The scan -/

/-- What is left of the text from a place on. -/
def keptFrom (before : Option Char) (adjacent : Bool) (s : List Char) : List Char :=
  (scanFrom emptyLinesPattern.matchAt before 0 adjacent s).flatMap (putFor fun _ => [])

theorem dropEmptyLines_eq_keptFrom (s : List Char) : dropEmptyLines s = keptFrom none false s := by
  rw [dropEmptyLines, replaceAll_eq_replaceFrom]
  rfl

/-- A line is copied up to its end. -/
theorem exists_keptFrom_line (before : Option Char) (adjacent : Bool) {l : List Char}
    (line : '\n' ∉ l) (r : List Char) :
    ∃ adjacent', keptFrom before adjacent (l ++ r) =
      l ++ keptFrom (l.getLast?.or before) adjacent' r := by
  have none : ∀ u v, l = u ++ v → v ≠ [] →
      emptyLinesPattern.matchAt (u.getLast?.or before) (v ++ r) = none := by
    intro u v same full
    obtain ⟨c, v, rfl⟩ := List.exists_cons_of_ne_nil full
    apply matchAt_emptyLinesPattern_of_ne
    rintro rfl
    apply line
    rw [same]
    simp
  obtain ⟨adjacent', copied⟩ := scanFrom_copy before adjacent none
  refine ⟨adjacent', ?_⟩
  have letters : (l.map Piece.copy).flatMap (putFor fun _ => []) = l := by
    rw [List.flatMap_map]
    exact List.flatMap_singleton' l
  rw [keptFrom, copied, List.flatMap_append, letters]
  rfl

/-- Before a line that is not blank there is nothing to take, and the line feed is copied. -/
theorem keptFrom_lineFeed (before : Option Char) (adjacent : Bool) {r : List Char}
    (next : IsNext ('\n' :: r)) :
    keptFrom before adjacent ('\n' :: r) = '\n' :: keptFrom (some '\n') false r := by
  have found := matchAt_emptyLinesPattern before isGap_nil (.inl rfl) next
  rw [List.nil_append] at found
  rw [keptFrom, scanFrom, found]
  cases adjacent <;> rfl

theorem keptFrom_nil (before : Option Char) (adjacent : Bool) :
    keptFrom before adjacent [] = [] := by
  have found : emptyLinesPattern.matchAt before [] = some ⟨[], []⟩ :=
    matchAt_emptyLinesPattern before isGap_nil (.inl rfl) (.inl rfl)
  rw [keptFrom, scanFrom, found]
  cases adjacent <;> rfl

/-- Blank lines are taken in one match. -/
theorem exists_keptFrom_blank (before : Option Char) (adjacent : Bool)
    {bs : List (List Char)} {r : List Char} (blank : ∀ b ∈ bs, isFilled b = false)
    (next : IsNext r) :
    ∃ before' adjacent', keptFrom before adjacent (leads bs ++ r) =
      keptFrom before' adjacent' r := by
  cases bs with
  | nil => exact ⟨before, adjacent, rfl⟩
  | cons b bs =>
    have found :=
      matchAt_emptyLinesPattern before (isGap_leads blank) (.inr ⟨_, leads_cons b bs⟩) next
    have scanned := scanFrom_hit adjacent (m := ⟨leads (b :: bs), []⟩) (List.cons_ne_nil _ _) found
    refine ⟨(leads (b :: bs)).getLast?.or before, true, ?_⟩
    rw [keptFrom, scanned]
    rfl

/-- Behind the end of a line, and blank lines that follow it, the other lines are left that are not
blank. -/
theorem keptFrom_leads (before : Option Char) (adjacent : Bool) {bs ls : List (List Char)}
    (blank : ∀ b ∈ bs, isFilled b = false) (line : ∀ l ∈ ls, '\n' ∉ l) :
    keptFrom before adjacent (leads bs ++ leads ls) = leads (ls.filter isFilled) := by
  -- The blank lines are gathered in `bs` until a line comes that is not blank.
  induction ls generalizing before adjacent bs with
  | nil =>
    obtain ⟨before', adjacent', skipped⟩ := exists_keptFrom_blank before adjacent blank (.inl rfl)
    exact skipped.trans (keptFrom_nil before' adjacent')
  | cons l ls ih =>
    obtain ⟨here, later⟩ := List.forall_mem_cons.mp line
    cases filled : isFilled l with
    | false =>
      have more : ∀ b ∈ bs ++ [l], isFilled b = false := by
        intro b hb
        rcases List.mem_append.mp hb with earlier | last
        · exact blank b earlier
        · rw [List.mem_singleton.mp last, filled]
      have gathered : leads bs ++ leads (l :: ls) = leads (bs ++ [l]) ++ leads ls := by
        rw [← leads_append, ← leads_append, List.append_cons]
      rw [gathered, ih before adjacent more later, List.filter_cons_of_neg (by simp [filled])]
    | true =>
      have next := isNext_leads ls filled here
      obtain ⟨before', adjacent', skipped⟩ := exists_keptFrom_blank before adjacent blank next
      obtain ⟨adjacent'', copied⟩ := exists_keptFrom_line (some '\n') false here (leads ls)
      have others := ih (l.getLast?.or (some '\n')) adjacent'' (List.forall_mem_nil _) later
      rw [leads_cons] at next
      rw [skipped, leads_cons, keptFrom_lineFeed before' adjacent' next, copied,
        List.filter_cons_of_pos filled, leads_cons]
      exact congrArg (fun t => '\n' :: (l ++ t)) others

/-- The first line stays, and of the others those that are not blank. -/
theorem dropEmptyLines_join (l : List Char) {ls : List (List Char)}
    (line : ∀ k ∈ l :: ls, '\n' ∉ k) :
    dropEmptyLines (join ['\n'] (l :: ls)) = join ['\n'] (l :: ls.filter isFilled) := by
  obtain ⟨here, later⟩ := List.forall_mem_cons.mp line
  obtain ⟨adjacent, copied⟩ := exists_keptFrom_line none false here (leads ls)
  have others := keptFrom_leads (l.getLast?.or none) adjacent (List.forall_mem_nil _) later
  rw [join_eq_append_leads, dropEmptyLines_eq_keptFrom, copied, join_eq_append_leads]
  exact congrArg (l ++ ·) others

/-- The pass stands between the rules and what comes after them. -/
theorem python3Text_dropEmptyLines (book : RuleBook) (source : String) (className : Option String) :
    python3Text book source className true =
      python3Text { book with python3 := ⟨book.python3.name, []⟩ }
        (String.ofList (dropEmptyLines (book.python3.applyChars source.toList)))
        className false := by
  unfold python3Text
  rw [String.toList_ofList]
  rfl

/-- If the first line is not blank, exactly the lines that are not blank are left, in their order
and as they were. What follows the pass sees these lines as it would see them without rules and
without the pass. -/
theorem dropEmptyLines_keeps_filled {s : List Char}
    (first : (splitOn '\n' s).head?.any isFilled = true) :
    dropEmptyLines s = join ['\n'] ((splitOn '\n' s).filter isFilled) ∧
    ∀ (book : RuleBook) (source : String) (className : Option String),
      book.python3.applyChars source.toList = s →
      python3Text book source className true =
        python3Text { book with python3 := ⟨book.python3.name, []⟩ }
          (String.ofList (join ['\n'] ((splitOn '\n' s).filter isFilled))) className false := by
  have kept : dropEmptyLines s = join ['\n'] ((splitOn '\n' s).filter isFilled) := by
    cases pieces : splitOn '\n' s with
    | nil => exact absurd pieces (splitOn_ne_nil '\n' s)
    | cons l ls =>
      rw [pieces] at first
      have filled : isFilled l = true := first
      have line : ∀ k ∈ l :: ls, '\n' ∉ k := by
        intro k hk
        rw [← pieces] at hk
        exact not_mem_of_mem_splitOn hk
      rw [List.filter_cons_of_pos filled, ← dropEmptyLines_join l line, ← pieces, join_splitOn]
  refine ⟨kept, ?_⟩
  intro book source className made
  rw [python3Text_dropEmptyLines, made, kept]

/-- Carriage returns, wide blanks and the blanks at both ends of a line count as such. -/
theorem dropEmptyLines_keeps_filled_mixed :
    dropEmptyLines "if x:  \r\n\r\n\u3000\t\n    y = 1 \n \n".toList =
      "if x:  \r\n    y = 1 ".toList := by
  have kept := (dropEmptyLines_keeps_filled
    (s := "if x:  \r\n\r\n\u3000\t\n    y = 1 \n \n".toList) (by decide +kernel)).1
  rw [kept]
  decide +kernel

end Polyglot.Render.Python

import Polyglot.Class.Source
import Polyglot.Proofs.Hits
import Polyglot.Proofs.Lines
import Polyglot.Proofs.Runs

/-!
Blank lines separate the blocks of a class body. A paragraph is a run of lines none of which is
blank, and a text without blank characters at its ends is a stack of paragraphs with gaps between
them (`exists_stacked`). Splitting at the separator pattern gives exactly these paragraphs
(`blocks_stacked`), whatever blank characters the gaps are made of.
-/

namespace Polyglot.ClassDecl

open Pattern Text

/-- A line with a character that is not blank. -/
structure IsFilled (l : List Char) : Prop where
  line : '\n' ∉ l
  visible : ¬ IsGap l

instance (l : List Char) : Decidable (IsFilled l) :=
  decidable_of_iff ('\n' ∉ l ∧ ¬ IsGap l) ⟨fun h => ⟨h.1, h.2⟩, fun h => ⟨h.line, h.visible⟩⟩

/-- Lines without a blank one among them. -/
structure IsParagraph (ls : List (List Char)) : Prop where
  full : ls ≠ []
  filled : ∀ l ∈ ls, IsFilled l

instance (ls : List (List Char)) : Decidable (IsParagraph ls) :=
  decidable_of_iff (ls ≠ [] ∧ ∀ l ∈ ls, IsFilled l) ⟨fun h => ⟨h.1, h.2⟩,
    fun h => ⟨h.full, h.filled⟩⟩

/-- A paragraph and those that follow it, each behind a gap between two line ends. -/
def stacked (first : List (List Char)) : List (List Char × List (List Char)) → List Char
  | [] => join ['\n'] first
  | (gap, next) :: more => join ['\n'] first ++ '\n' :: (gap ++ '\n' :: stacked next more)

/-- A text whose first line is not blank. -/
def Opens (s : List Char) : Prop :=
  ∃ b d r, s = b ++ d :: r ∧ IsGap b ∧ '\n' ∉ b ∧ isBlank d = false

theorem IsFilled.opens {l : List Char} (h : IsFilled l) (r : List Char) : Opens (l ++ r) := by
  obtain ⟨b, d, l', rfl, gap, hd⟩ := exists_first_of_not_isGap h.visible
  refine ⟨b, d, l' ++ r, by simp, gap, ?_, hd⟩
  intro mem
  exact h.line (List.mem_append_left _ mem)

theorem IsParagraph.opens {ls : List (List Char)} (h : IsParagraph ls) (r : List Char) :
    Opens (join ['\n'] ls ++ r) := by
  obtain ⟨l, ls, rfl⟩ := List.exists_cons_of_ne_nil h.full
  obtain ⟨s, hs⟩ := exists_join_cons ['\n'] ls
  rw [hs, List.append_assoc]
  exact (h.filled l List.mem_cons_self).opens (s ++ r)

theorem IsParagraph.tail {l : List Char} {ls : List (List Char)} (h : IsParagraph (l :: ls))
    (full : ls ≠ []) : IsParagraph ls :=
  ⟨full, fun k hk => h.filled k (List.mem_cons_of_mem _ hk)⟩

/-- Behind each line end of a paragraph stands one of its lines. -/
theorem IsParagraph.opens_of_lineEnd {ls : List (List Char)} (h : IsParagraph ls) {u v : List Char}
    (split : join ['\n'] ls = u ++ '\n' :: v) (r : List Char) : Opens (v ++ r) := by
  induction ls generalizing u with
  | nil => exact absurd rfl h.full
  | cons l ls ih =>
    have hl := h.filled l List.mem_cons_self
    cases ls with
    | nil =>
      have inside : '\n' ∈ l := by
        rw [join] at split
        rw [split]
        simp
      exact absurd inside hl.line
    | cons k ls =>
      rw [join_cons_cons, List.append_assoc, List.singleton_append] at split
      rcases List.append_eq_append_iff.mp split with ⟨a, hu, hv⟩ | ⟨a, hl', hv⟩
      · cases a with
        | nil =>
          rw [List.nil_append, List.cons.injEq] at hv
          rw [← hv.2]
          exact (h.tail (List.cons_ne_nil _ _)).opens r
        | cons c a =>
          rw [List.cons_append, List.cons.injEq] at hv
          exact ih (h.tail (List.cons_ne_nil _ _)) hv.2
      · cases a with
        | nil =>
          rw [List.nil_append, List.cons.injEq] at hv
          rw [hv.2]
          exact (h.tail (List.cons_ne_nil _ _)).opens r
        | cons c a =>
          rw [List.cons_append, List.cons.injEq] at hv
          refine absurd ?_ hl.line
          rw [hl', hv.1]
          simp

theorem isGap_newline : isBlank '\n' = true := by decide

/-! ### The separator -/

theorem separatorPattern_isTame : separatorPattern.isTame = true := by decide

theorem ways_separatorPattern {c : Cursor} {s : List Char} (h : c.rest = '\n' :: s) :
    separatorPattern.ways c =
      (blanks.ways (c.past ['\n'])).flatMap (seqAll (chars ['\n'])).ways := by
  change (seqAll (chars ['\n'] ++ ([blanks] ++ chars ['\n']))).ways c = _
  rw [ways_seqAll_append, ways_chars (w := ['\n']) h, List.flatMap_singleton, ways_seqAll_append]
  rfl

theorem matchAt_separator_of_ne {before : Option Char} {c : Char} {s : List Char} (hc : c ≠ '\n') :
    separatorPattern.matchAt before (c :: s) = none := by
  have none : ¬ ['\n'] <+: (Cursor.start before (c :: s)).rest := by
    intro begins
    exact hc (List.cons_prefix_cons.mp begins).1.symm
  rw [matchAt_eq_ways separatorPattern_isTame]
  change ((seqAll (chars ['\n'] ++ ([blanks] ++ chars ['\n']))).ways _).head?.map _ = _
  rw [ways_seqAll_append, ways_chars_eq_nil none]
  rfl

/-- A line end before a line that is not blank separates nothing. -/
theorem matchAt_separator_of_opens {before : Option Char} {s : List Char} (h : Opens s) :
    separatorPattern.matchAt before ('\n' :: s) = none := by
  obtain ⟨b, d, r, rfl, gap, line, hd⟩ := h
  have none : separatorPattern.ways (.start before ('\n' :: (b ++ d :: r))) = [] := by
    rw [ways_separatorPattern rfl, List.flatMap_eq_nil_iff]
    intro e he
    obtain ⟨w, r', hw, all, rfl⟩ := mem_ways_star_char.mp he
    refine ways_chars_eq_nil fun begins => ?_
    obtain ⟨r'', hr⟩ := begins
    have behind : (Cursor.past (.start before ('\n' :: (b ++ d :: r))) ['\n']).rest =
      b ++ d :: r := rfl
    rw [behind] at hw
    rw [Cursor.rest_past (behind.trans hw)] at hr
    obtain ⟨b', hb⟩ := prefix_of_run hw all (by simpa [CharSet.has] using hd)
    rw [← hb, List.append_assoc, List.append_cancel_left_eq, ← hr] at hw
    cases b' with
    | nil =>
      simp only [List.nil_append, List.singleton_append, List.cons.injEq] at hw
      rw [hw.1, isGap_newline] at hd
      cases hd
    | cons x b' =>
      simp only [List.cons_append, List.nil_append, List.cons.injEq] at hw
      exact line (by rw [← hb, hw.1]; simp)
  rw [matchAt_eq_ways separatorPattern_isTame, none]
  rfl

/-- Two line ends with a gap between them separate, and nothing of the next line belongs to the
separator. -/
theorem matchAt_separator {before : Option Char} {gap s : List Char} (hgap : IsGap gap)
    (h : Opens s) :
    separatorPattern.matchAt before ('\n' :: (gap ++ '\n' :: s)) =
      some ⟨'\n' :: (gap ++ ['\n']), []⟩ := by
  obtain ⟨b, d, r, rfl, hb, line, hd⟩ := h
  have behind : (Cursor.past (.start before ('\n' :: (gap ++ '\n' :: (b ++ d :: r)))) ['\n']).rest =
      gap ++ '\n' :: b ++ d :: r := by
    simp [Cursor.past]
  have first : ∃ more,
      separatorPattern.ways (.start before ('\n' :: (gap ++ '\n' :: (b ++ d :: r)))) =
        (seqAll (chars ['\n'])).ways ((Cursor.past
          (.start before ('\n' :: (gap ++ '\n' :: (b ++ d :: r)))) ['\n']).past gap) ++ more := by
    rw [ways_separatorPattern rfl]
    refine flatMap_ways_star_greedy behind ?_ (by simpa [CharSet.has] using hd) ?_
    · intro e he
      rcases List.mem_append.mp he with inside | later
      · exact hgap e inside
      · rcases List.mem_cons.mp later with rfl | later
        · exact isGap_newline
        · exact hb e later
    · -- Behind the last line end of the run no further one follows.
      intro u full begins
      refine ways_chars_eq_nil fun found => ?_
      obtain ⟨v, hv⟩ := begins
      obtain ⟨x, u, rfl⟩ := List.exists_cons_of_ne_nil full
      rw [List.cons_append, List.cons.injEq] at hv
      have tail : gap ++ '\n' :: b ++ d :: r = (gap ++ x :: u) ++ (v ++ d :: r) := by
        rw [← hv.2, hv.1]
        simp
      rw [Cursor.rest_past (behind.trans tail)] at found
      cases v with
      | nil =>
        have same := (List.cons_prefix_cons.mp found).1
        rw [← same, isGap_newline] at hd
        cases hd
      | cons y v =>
        have same := (List.cons_prefix_cons.mp found).1
        refine line ?_
        rw [← hv.2, same]
        simp
  obtain ⟨more, hmore⟩ := first
  have last :
      (Cursor.past (Cursor.past (.start before ('\n' :: (gap ++ '\n' :: (b ++ d :: r)))) ['\n'])
      gap).rest = ['\n'] ++ (b ++ d :: r) :=
    Cursor.rest_past (by rw [behind, List.append_assoc]; rfl)
  rw [matchAt_eq_ways separatorPattern_isTame, hmore, ways_chars last]
  simp [Cursor.toMatch, Cursor.past, Cursor.start]

/-! ### Splitting -/

theorem split_go_copy (w : List Char) (m : Match) (pieces : List Piece) :
    Pattern.split.go (w.map .copy ++ .hit m :: pieces) = w :: Pattern.split.go pieces := by
  induction w with
  | nil => rfl
  | cons c w ih => simp [Pattern.split.go, ih]

theorem split_go_copy_nil (w : List Char) : Pattern.split.go (w.map .copy) = [w] := by
  induction w with
  | nil => rfl
  | cons c w ih => simp [Pattern.split.go, ih]

/-- Nothing is separated inside of a paragraph. -/
theorem IsParagraph.matchAt_eq_none {ls : List (List Char)} (h : IsParagraph ls) {u v : List Char}
    (split : join ['\n'] ls = u ++ v) (full : v ≠ []) (before : Option Char) (r : List Char) :
    separatorPattern.matchAt before (v ++ r) = none := by
  obtain ⟨c, v, rfl⟩ := List.exists_cons_of_ne_nil full
  by_cases hc : c = '\n'
  · subst hc
    exact matchAt_separator_of_opens (h.opens_of_lineEnd split r)
  · exact matchAt_separator_of_ne hc

theorem IsParagraph.opens_stacked {ls : List (List Char)} (h : IsParagraph ls)
    (more : List (List Char × List (List Char))) : Opens (stacked ls more) := by
  cases more with
  | nil => simpa [stacked] using h.opens []
  | cons next more => exact h.opens _

/-- A stack of paragraphs splits into the paragraphs. -/
theorem split_stacked {first : List (List Char)} {more : List (List Char × List (List Char))}
    (hfirst : IsParagraph first) (hmore : ∀ g ∈ more, IsGap g.1 ∧ IsParagraph g.2) :
    separatorPattern.split (stacked first more) =
      join ['\n'] first :: more.map fun g => join ['\n'] g.2 := by
  rw [Pattern.split, scan_eq_scanFrom]
  -- The scan may have arrived behind an earlier separator.
  suffices ∀ before adjacent, Pattern.split.go
      (scanFrom separatorPattern.matchAt before 0 adjacent (stacked first more)) =
      join ['\n'] first :: more.map fun g => join ['\n'] g.2 from this none false
  induction more generalizing first with
  | nil =>
    intro before adjacent
    obtain ⟨adjacent', copied⟩ := scanFrom_copy (r := []) before adjacent
      fun u v hw full => hfirst.matchAt_eq_none hw full (u.getLast?.or before) []
    have stop :
        scanFrom separatorPattern.matchAt ((join ['\n'] first).getLast?.or before) 0 adjacent'
        [] = [] := by
      have none : separatorPattern.matchAt ((join ['\n'] first).getLast?.or before) [] = none :=
        matchAt_eq_none_of_not_mayStart (by decide)
      rw [scanFrom, none]
    rw [List.append_nil, stop, List.append_nil] at copied
    rw [stacked, copied, split_go_copy_nil]
    rfl
  | cons next more ih =>
    obtain ⟨gap, second⟩ := next
    intro before adjacent
    obtain ⟨hgap, hsecond⟩ := hmore (gap, second) List.mem_cons_self
    obtain ⟨adjacent', copied⟩ := scanFrom_copy before adjacent
      (r := '\n' :: (gap ++ '\n' :: stacked second more))
      fun u v hw full => hfirst.matchAt_eq_none hw full (u.getLast?.or before) _
    have hit := scanFrom_hit adjacent' (m := ⟨'\n' :: (gap ++ ['\n']), []⟩)
      (r := stacked second more) (List.cons_ne_nil _ _)
      (show separatorPattern.matchAt ((join ['\n'] first).getLast?.or before) _ = _ by
        simpa using matchAt_separator hgap (hsecond.opens_stacked more))
    have text : '\n' :: (gap ++ ['\n']) ++ stacked second more =
        '\n' :: (gap ++ '\n' :: stacked second more) := by simp
    rw [text] at hit
    rw [stacked, copied, hit, split_go_copy,
      ih hsecond fun g hg => hmore g (List.mem_cons_of_mem _ hg)]
    rfl

/-! ### Blank characters at the ends -/

theorem IsFilled.of_gaps {u l v : List Char} (h : IsFilled (u ++ l ++ v)) (hu : IsGap u)
    (hv : IsGap v) : IsFilled l := by
  constructor
  · intro mem
    exact h.line (List.mem_append_left _ (List.mem_append_right _ mem))
  · intro gap
    exact h.visible ((hu.append gap).append hv)

theorem not_isGap_of_opens {s : List Char} (h : Opens s) : ¬ IsGap s := by
  obtain ⟨b, d, r, rfl, -, -, hd⟩ := h
  intro gap
  rw [gap d (by simp)] at hd
  cases hd

/-- Blank characters at the start belong to the first line. -/
theorem trimLeft_stacked {first : List (List Char)} (hfirst : IsParagraph first)
    (more : List (List Char × List (List Char))) :
    ∃ first', trimLeft (stacked first more) = stacked first' more ∧ IsParagraph first' ∧
      trim (join ['\n'] first') = trim (join ['\n'] first) := by
  obtain ⟨l, ls, rfl⟩ := List.exists_cons_of_ne_nil hfirst.full
  have hl := hfirst.filled l List.mem_cons_self
  obtain ⟨u, hu, hsplit⟩ := exists_trimLeft l
  have moved (r : List Char) : trimLeft (l ++ r) = trimLeft l ++ r :=
    trimLeft_append_of_not_isGap hl.visible r
  obtain ⟨r, hr⟩ := exists_join_cons ['\n'] ls
  have filled : IsFilled (trimLeft l) := by
    refine IsFilled.of_gaps (u := u) (v := []) ?_ hu isGap_nil
    rwa [List.append_nil, ← hsplit]
  refine ⟨trimLeft l :: ls, ?_, ⟨List.cons_ne_nil _ _, ?_⟩, ?_⟩
  · cases more with
    | nil => rw [stacked, stacked, hr, hr, moved]
    | cons next more =>
      rw [stacked, stacked, hr, hr, List.append_assoc, moved, List.append_assoc]
  · intro k hk
    rcases List.mem_cons.mp hk with rfl | later
    · exact filled
    · exact hfirst.filled k (List.mem_cons_of_mem _ later)
  · rw [hr, hr]
    have outer := trim_append_gaps hu isGap_nil (trimLeft l ++ r)
    rw [List.append_nil, ← List.append_assoc, ← hsplit] at outer
    exact outer.symm

/-- Blank characters at the end belong to the last line. -/
theorem trimRight_join {ls : List (List Char)} (h : IsParagraph ls) :
    ∃ ls', trimRight (join ['\n'] ls) = join ['\n'] ls' ∧ IsParagraph ls' ∧
      trim (join ['\n'] ls') = trim (join ['\n'] ls) := by
  have last := List.dropLast_concat_getLast h.full
  have hl := h.filled _ (List.getLast_mem h.full)
  generalize ls.getLast h.full = l at last hl
  obtain ⟨v, hv, hsplit⟩ := exists_trimRight l
  have filled : IsFilled (trimRight l) := by
    refine IsFilled.of_gaps (u := []) (v := v) ?_ isGap_nil hv
    rwa [List.nil_append, ← hsplit]
  obtain ⟨a, ha⟩ := exists_join_concat ['\n'] ls.dropLast
  have moved : join ['\n'] ls = a ++ l := by rw [← last, ha]
  refine ⟨ls.dropLast ++ [trimRight l], ?_, ⟨by simp, ?_⟩, ?_⟩
  · rw [moved, ha, trimRight_append_of_not_isGap hl.visible]
  · intro k hk
    rcases List.mem_append.mp hk with early | late
    · exact h.filled k (List.dropLast_subset _ early)
    · rw [List.mem_singleton.mp late]
      exact filled
  · rw [ha, moved]
    have outer := trim_append_gaps isGap_nil hv (a ++ trimRight l)
    rw [List.nil_append, List.append_assoc, ← hsplit] at outer
    exact outer.symm

theorem trimRight_stacked {first : List (List Char)} {more : List (List Char × List (List Char))}
    (hfirst : IsParagraph first) (hmore : ∀ g ∈ more, IsGap g.1 ∧ IsParagraph g.2) :
    ∃ first' more', trimRight (stacked first more) = stacked first' more' ∧ IsParagraph first' ∧
      (∀ g ∈ more', IsGap g.1 ∧ IsParagraph g.2) ∧
      (first' :: more'.map Prod.snd).map (fun ls => trim (join ['\n'] ls)) =
        (first :: more.map Prod.snd).map fun ls => trim (join ['\n'] ls) := by
  induction more generalizing first with
  | nil =>
    obtain ⟨first', text, hfirst', same⟩ := trimRight_join hfirst
    exact ⟨first', [], text, hfirst', by simp, by simp [same]⟩
  | cons next more ih =>
    obtain ⟨gap, second⟩ := next
    obtain ⟨hgap, hsecond⟩ := hmore (gap, second) List.mem_cons_self
    obtain ⟨second', more', text, hsecond', hmore', same⟩ :=
      ih hsecond fun g hg => hmore g (List.mem_cons_of_mem _ hg)
    refine ⟨first, (gap, second') :: more', ?_, hfirst, ?_, ?_⟩
    · have visible := not_isGap_of_opens (hsecond.opens_stacked more)
      have moved :=
        trimRight_append_of_not_isGap visible (join ['\n'] first ++ '\n' :: (gap ++ ['\n']))
      simp only [List.append_assoc, List.cons_append, List.nil_append] at moved
      rw [stacked, moved, text, stacked]
    · intro g hg
      rcases List.mem_cons.mp hg with rfl | later
      · exact ⟨hgap, hsecond'⟩
      · exact hmore' g later
    · simp only [List.map_cons, List.cons.injEq] at same ⊢
      exact ⟨trivial, same⟩

/-- The blocks of a body are its paragraphs, trimmed. -/
theorem blocks_stacked {u v : List Char} {first : List (List Char)}
    {more : List (List Char × List (List Char))} (hu : IsGap u) (hv : IsGap v)
    (hfirst : IsParagraph first) (hmore : ∀ g ∈ more, IsGap g.1 ∧ IsParagraph g.2) :
    blocks (u ++ stacked first more ++ v) =
      (first :: more.map Prod.snd).map fun ls => trim (join ['\n'] ls) := by
  obtain ⟨first', left, hfirst', same⟩ := trimLeft_stacked hfirst more
  obtain ⟨first'', more'', right, hfirst'', hmore'', same'⟩ := trimRight_stacked hfirst' hmore
  rw [blocks, trim_append_gaps hu hv, trim, left, right, split_stacked hfirst'' hmore'']
  simp only [List.map_cons, List.map_map, same] at same' ⊢
  exact same'

/-! ### Every text is a stack -/

theorem isGap_join {ls : List (List Char)} (h : ∀ l ∈ ls, IsGap l) : IsGap (join ['\n'] ls) := by
  induction ls with
  | nil => exact isGap_nil
  | cons l ls ih =>
    have hl := h l List.mem_cons_self
    cases ls with
    | nil => exact hl
    | cons k ls =>
      rw [join_cons_cons]
      refine (hl.append ?_).append (ih fun m hm => h m (List.mem_cons_of_mem _ hm))
      intro c hc
      rw [List.mem_singleton.mp hc]
      exact isGap_newline

/-- Blank lines end at the first line that is not blank, if there is one. -/
theorem exists_first_visible {ls : List (List Char)} {last : List Char} (hlast : last ∈ ls)
    (visible : ¬ IsGap last) :
    ∃ bs l rest, ls = bs ++ l :: rest ∧ (∀ b ∈ bs, IsGap b) ∧ ¬ IsGap l := by
  induction ls with
  | nil => cases hlast
  | cons k ls ih =>
    by_cases gap : IsGap k
    · rcases List.mem_cons.mp hlast with rfl | later
      · exact absurd gap visible
      · obtain ⟨bs, l, rest, rfl, hbs, hl⟩ := ih later
        refine ⟨k :: bs, l, rest, rfl, ?_, hl⟩
        intro b hb
        rcases List.mem_cons.mp hb with rfl | inside
        · exact gap
        · exact hbs b inside
    · exact ⟨[], k, ls, rfl, by simp, gap⟩

/-- Lines of which neither the first nor the last is blank are paragraphs with gaps between them. -/
theorem exists_stacked_of_lines {l last : List Char} {ls : List (List Char)}
    (lines : ∀ k ∈ l :: ls, '\n' ∉ k) (hl : ¬ IsGap l) (hlast : (l :: ls).getLast? = some last)
    (visible : ¬ IsGap last) :
    ∃ first more, join ['\n'] (l :: ls) = stacked (l :: first) more ∧ IsParagraph (l :: first) ∧
      ∀ g ∈ more, IsGap g.1 ∧ IsParagraph g.2 := by
  generalize hn : ls.length = n
  induction n using Nat.strongRecOn generalizing l ls with
  | ind n ih =>
    have single : IsParagraph [l] := by
      refine ⟨List.cons_ne_nil _ _, fun k hk => ?_⟩
      rw [List.mem_singleton.mp hk]
      exact ⟨lines l List.mem_cons_self, hl⟩
    cases ls with
    | nil => exact ⟨[], [], rfl, single, by simp⟩
    | cons k ls =>
      have hlast' : (k :: ls).getLast? = some last := by simpa using hlast
      by_cases gap : IsGap k
      · -- The paragraph ends here, and the next one begins with the next line that is not blank.
        obtain ⟨bs, m, rest, hrest, hbs, hm⟩ :=
          exists_first_visible (List.mem_of_getLast? hlast') visible
        have some : bs ≠ [] := by
          rintro rfl
          obtain ⟨rfl, -⟩ := List.cons.inj hrest
          exact hm gap
        have short : rest.length < n := by
          have := congrArg List.length hrest
          simp only [List.length_cons, List.length_append] at this hn
          have := List.length_pos_iff.mpr some
          omega
        have later : ∀ x ∈ m :: rest, '\n' ∉ x := by
          intro x hx
          refine lines x (List.mem_cons_of_mem _ ?_)
          rw [hrest]
          exact List.mem_append_right _ hx
        have end' : (m :: rest).getLast? = Option.some last := by
          rw [hrest] at hlast'
          simpa using hlast'
        obtain ⟨first, more, text, hfirst, hmore⟩ := ih _ short later hm end' rfl
        refine ⟨[], (join ['\n'] bs, m :: first) :: more, ?_, single, ?_⟩
        · rw [hrest, join_cons l (by simp), join_append some (by simp), text]
          simp [stacked, join]
        · intro g hg
          rcases List.mem_cons.mp hg with rfl | inside
          · exact ⟨isGap_join hbs, hfirst⟩
          · exact hmore g inside
      · obtain ⟨first, more, text, hfirst, hmore⟩ := ih ls.length (by simp [← hn])
          (fun x hx => lines x (List.mem_cons_of_mem _ hx)) gap hlast' rfl
        refine ⟨k :: first, more, ?_, ⟨List.cons_ne_nil _ _, ?_⟩, hmore⟩
        · rw [join_cons_cons, text]
          cases more with
          | nil => simp [stacked, join_cons_cons]
          | cons next more => simp [stacked, join_cons_cons]
        · intro x hx
          rcases List.mem_cons.mp hx with rfl | inside
          · exact single.filled x List.mem_cons_self
          · exact hfirst.filled x inside

/-- The first line of a text that begins with a visible character is not blank. -/
theorem not_isGap_of_first {l : List Char} {ls : List (List Char)}
    (full : join ['\n'] (l :: ls) ≠ [])
    (h : ∀ c ∈ (join ['\n'] (l :: ls)).head?, isBlank c = false) : ¬ IsGap l := by
  intro gap
  have blank : ∃ c ∈ (join ['\n'] (l :: ls)).head?, isBlank c = true := by
    cases l with
    | nil =>
      cases ls with
      | nil => exact absurd rfl full
      | cons k ls => exact ⟨'\n', by simp [join_cons_cons], isGap_newline⟩
    | cons d l =>
      obtain ⟨r, hr⟩ := exists_join_cons ['\n'] ls
      exact ⟨d, by simp [hr], gap d List.mem_cons_self⟩
  obtain ⟨c, hc, hblank⟩ := blank
  rw [h c hc] at hblank
  cases hblank

theorem not_isGap_of_last {l : List Char} {ls : List (List Char)}
    (full : join ['\n'] (ls ++ [l]) ≠ [])
    (h : ∀ c ∈ (join ['\n'] (ls ++ [l])).getLast?, isBlank c = false) : ¬ IsGap l := by
  intro gap
  have blank : ∃ c ∈ (join ['\n'] (ls ++ [l])).getLast?, isBlank c = true := by
    rcases List.eq_nil_or_concat l with rfl | ⟨l, d, rfl⟩
    · by_cases single : ls = []
      · subst single
        exact absurd rfl full
      · exact ⟨'\n', by simp [join_append single, join], isGap_newline⟩
    · obtain ⟨a, ha⟩ := exists_join_concat ['\n'] ls
      exact ⟨d, by simp [ha], gap d (by simp)⟩
  obtain ⟨c, hc, hblank⟩ := blank
  rw [h c hc] at hblank
  cases hblank

theorem exists_stacked {t : List Char} (tight : IsTight t) (full : t ≠ []) :
    ∃ first more, t = stacked first more ∧ IsParagraph first ∧
      ∀ g ∈ more, IsGap g.1 ∧ IsParagraph g.2 := by
  have joined := join_splitOn '\n' t
  obtain ⟨l, ls, hls⟩ := List.exists_cons_of_ne_nil (splitOn_ne_nil '\n' t)
  have lines : ∀ k ∈ l :: ls, '\n' ∉ k := by
    intro k hk
    rw [← hls] at hk
    exact not_mem_of_mem_splitOn hk
  rw [hls] at joined
  subst joined
  have hlast := List.getLast?_eq_some_getLast (List.cons_ne_nil l ls)
  generalize (l :: ls).getLast (List.cons_ne_nil l ls) = last at hlast
  obtain ⟨ks, hks⟩ := List.getLast?_eq_some_iff.mp hlast
  have visible : ¬ IsGap last := by
    rw [hks] at tight full
    exact not_isGap_of_last full tight.2
  obtain ⟨first, more, text, hfirst, hmore⟩ :=
    exists_stacked_of_lines lines (not_isGap_of_first full tight.1) hlast visible
  exact ⟨l :: first, more, text, hfirst, hmore⟩

/-- A body that is not blank is a stack of paragraphs between two gaps. -/
theorem exists_stacked_body {body : List Char} (h : ¬ IsGap body) :
    ∃ u first more v, body = u ++ stacked first more ++ v ∧ IsGap u ∧ IsGap v ∧
      IsTight (stacked first more) ∧ IsParagraph first ∧
        ∀ g ∈ more, IsGap g.1 ∧ IsParagraph g.2 := by
  obtain ⟨u, v, hu, hv, tight, split⟩ := exists_trim body
  obtain ⟨first, more, text, hfirst, hmore⟩ := exists_stacked tight (trim_ne_nil h)
  rw [text] at tight split
  exact ⟨u, first, more, v, split, hu, hv, tight, hfirst, hmore⟩

end Polyglot.ClassDecl

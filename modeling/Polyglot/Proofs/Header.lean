import Polyglot.Class.Source
import Polyglot.Proofs.Hits
import Polyglot.Proofs.Lines
import Polyglot.Proofs.Runs

/-!
Where a class stands in a text. `IsHeader` and `IsBody` say what its header and its body are without
a pattern. The header pattern finds the first line that begins with a header whose class is closed,
and the body ends before the first brace that closes it at the start of a line.
-/

namespace Polyglot.ClassDecl

open Pattern Text

/-- A gap that is not empty. -/
structure IsSpace (s : List Char) : Prop where
  full : s ≠ []
  gap : IsGap s

/-- `module.exports = class name extends base ` and a brace. -/
structure IsHeader (name base head : List Char) : Prop where
  nameWord : IsWord name
  baseWord : IsWord base
  spelled : ∃ a b c d e f, IsGap a ∧ IsGap b ∧ IsSpace c ∧ IsSpace d ∧ IsSpace e ∧ IsSpace f ∧
    head = "module.exports".toList ++ (a ++ '=' :: (b ++ ("class".toList ++ (c ++ (name ++ (d ++
      ("extends".toList ++ (e ++ (base ++ (f ++ ['\x7b']))))))))))

theorem isHeader_spaced {name base : String} (hname : IsWord name.toList)
    (hbase : IsWord base.toList) : IsHeader name.toList base.toList
      ("module.exports = class " ++ name ++ " extends " ++ base ++ " \x7b").toList where
  nameWord := hname
  baseWord := hbase
  spelled := by
    have space : IsSpace [' '] := ⟨by decide, by decide⟩
    refine ⟨[' '], [' '], [' '], [' '], [' '], [' '], space.gap, space.gap, space, space,
      space, space, ?_⟩
    simp

theorem IsHeader.begins {name base head : List Char} (h : IsHeader name base head) :
    "module.exports".toList <+: head := by
  obtain ⟨_, _, _, _, _, _, -, -, -, -, -, -, rfl⟩ := h.spelled
  exact List.prefix_append _ _

/-- What stands between the brace of a header and the first brace that follows it at the start of a
line. -/
structure IsBody (body : List Char) : Prop where
  ended : body.getLast? = some '\n'
  unclosed : ∀ u v, body ≠ u ++ '\n' :: '\x7d' :: v

/-- The part of the pattern up to the brace, and what follows it. -/
def headerThen (qs : List Pattern) : List Pattern :=
  chars "module.exports".toList ++ (blanks :: (chars ['='] ++ (blanks :: (chars "class".toList ++
    (gap :: group 1 wordRun :: gap :: (chars "extends".toList ++ (gap :: group 2 wordRun :: gap ::
      (chars ['\x7b'] ++ qs))))))))

/-- The part of the pattern behind the body. -/
def closingRest : List Pattern :=
  look .lineStart :: (chars ['\x7d'] ++ [star true (char (.single ';'))])

/-- The part of the pattern behind the brace. -/
def bodyThen : List Pattern :=
  group 3 (plus false (oneOf [.blank, .compl .blank])) :: closingRest

theorem headerPattern_eq : headerPattern = seqAll (look .lineStart :: headerThen bodyThen) := rfl

theorem holds_lineStart {before : Option Char} {rest : List Char} :
    Look.lineStart.holds before rest = true ↔ before = none ∨ before = some '\n' := by
  simp [Look.holds]

theorem headerPattern_isTame : headerPattern.isTame = true := by decide

section Words

variable {c : Cursor} {w r : List Char} {qs : List Pattern}

theorem stop_of_isWord (hw : IsWord w) (r : List Char) :
    (w ++ r).head?.any CharSet.blank.has = false := by
  obtain ⟨x, w, rfl⟩ := List.exists_cons_of_ne_nil hw.full
  exact hw.solid x List.mem_cons_self

theorem IsSpace.stop {s : List Char} (h : IsSpace s) (r : List Char) :
    (s ++ r).head?.any (CharSet.compl .blank).has = false := by
  obtain ⟨x, s, rfl⟩ := List.exists_cons_of_ne_nil h.full
  have blank : isBlank x = true := h.gap x List.mem_cons_self
  simp [CharSet.has, blank]

theorem bars_word (hw : IsWord w) : Bars (chars w ++ qs) .blank := by
  obtain ⟨x, w, rfl⟩ := List.exists_cons_of_ne_nil hw.full
  exact bars_chars w (hw.solid x List.mem_cons_self)

theorem ways_blanks_word {g : List Char} (hg : IsGap g) (hw : IsWord w)
    (h : c.rest = g ++ (w ++ r)) :
    (seqAll (blanks :: (chars w ++ qs))).ways c = (seqAll qs).ways ((c.past g).past w) := by
  rw [blanks, ways_star_cons .blank (bars_word hw) h hg (stop_of_isWord hw r),
    ways_chars_append (Cursor.rest_past h)]

theorem ways_named {d n e : List Char} (index : Nat) (hd : IsSpace d) (hn : IsWord n)
    (he : IsSpace e) (hw : IsWord w) (h : c.rest = d ++ (n ++ (e ++ (w ++ r)))) :
    (seqAll (gap :: group index wordRun :: gap :: (chars w ++ qs))).ways c =
      (seqAll qs).ways ((((c.past d).noting index n).past e).past w) := by
  have r₁ := Cursor.rest_past h
  have r₂ := Cursor.rest_noting index r₁
  have solid : ∀ x ∈ n, (CharSet.compl .blank).has x = true := by
    simpa [CharSet.has] using hn.solid
  have barsWord : Bars (group index (plus true (char (.compl .blank))) :: plus true (char .blank) ::
      (chars w ++ qs)) .blank :=
    Bars.group index (bars_plus true (by simp [CharSet.has]))
  have barsGap : Bars (plus true (char .blank) :: (chars w ++ qs)) (.compl .blank) :=
    bars_plus true (by simp [CharSet.has])
  rw [gap, wordRun, ways_plus_cons .blank barsWord hd.full h hd.gap (stop_of_isWord hn _),
    ways_group_plus_cons index barsGap hn.full r₁ solid (he.stop _),
    ways_plus_cons .blank (bars_word hw) he.full r₂ he.gap (stop_of_isWord hw _),
    ways_chars_append (Cursor.rest_past r₂)]

theorem mem_ways_blanks_word {e : Cursor} (mem : e ∈ (seqAll (blanks :: (chars w ++ qs))).ways c) :
    ∃ g r, IsGap g ∧ c.rest = g ++ (w ++ r) ∧ ∃ d, d.rest = r ∧ e ∈ (seqAll qs).ways d := by
  obtain ⟨g, r₁, h₁, t₁, hg, mem⟩ := mem_ways_star_cons mem
  obtain ⟨r, h₂, t₂, mem⟩ := mem_ways_chars_append mem
  refine ⟨g, r, hg, ?_, _, t₂, mem⟩
  rw [h₁, ← t₁, h₂]

theorem mem_ways_named {index : Nat} {e : Cursor}
    (mem : e ∈ (seqAll (gap :: group index wordRun :: gap :: (chars w ++ qs))).ways c) :
    ∃ g n g' r, IsSpace g ∧ IsWord n ∧ IsSpace g' ∧ c.rest = g ++ (n ++ (g' ++ (w ++ r))) ∧
      ∃ d, d.rest = r ∧ e ∈ (seqAll qs).ways d := by
  obtain ⟨g, r₁, full₁, h₁, t₁, gap₁, mem⟩ := mem_ways_plus_cons mem
  obtain ⟨n, r₂, full₂, h₂, t₂, solid, mem⟩ := mem_ways_group_plus_cons mem
  obtain ⟨g', r₃, full₃, h₃, t₃, gap₃, mem⟩ := mem_ways_plus_cons mem
  obtain ⟨r, h₄, t₄, mem⟩ := mem_ways_chars_append mem
  refine ⟨g, n, g', r, ⟨full₁, gap₁⟩, ⟨full₂, ?_⟩, ⟨full₃, gap₃⟩, ?_, _, t₄, mem⟩
  · intro x hx
    simpa [CharSet.has] using solid x hx
  · rw [h₁, ← t₁, h₂, ← t₂, h₃, ← t₃, h₄]

end Words

/-- A header is read in one way only. -/
theorem ways_headerThen {c : Cursor} {name base head r : List Char} (h : IsHeader name base head)
    (hrest : c.rest = head ++ r) (qs : List Pattern) :
    ∃ d, (seqAll (headerThen qs)).ways c = (seqAll qs).ways d ∧ d.rest = r ∧
      d.groups = (2, base) :: (1, name) :: c.groups := by
  obtain ⟨g₁, g₂, g₃, g₄, g₅, g₆, h₁, h₂, h₃, h₄, h₅, h₆, rfl⟩ := h.spelled
  have r₀ :
      c.rest = "module.exports".toList ++ (g₁ ++ (['='] ++ (g₂ ++ ("class".toList ++ (g₃ ++ (name ++
      (g₄ ++ ("extends".toList ++ (g₅ ++ (base ++ (g₆ ++ (['\x7b'] ++ r)))))))))))) := by
    rw [hrest]
    simp only [List.append_assoc, List.cons_append, List.nil_append]
  have r₁ := Cursor.rest_past r₀
  have r₂ := Cursor.rest_past (Cursor.rest_past r₁)
  have r₃ := Cursor.rest_past (Cursor.rest_past r₂)
  have r₄ := Cursor.rest_past (Cursor.rest_past (Cursor.rest_noting 1 (Cursor.rest_past r₃)))
  have r₅ := Cursor.rest_past (Cursor.rest_past (Cursor.rest_noting 2 (Cursor.rest_past r₄)))
  refine ⟨_, ?_, r₅, rfl⟩
  rw [headerThen, ways_chars_append r₀, ways_blanks_word h₁ (by decide) r₁,
    ways_blanks_word h₂ (by decide) r₂, ways_named 1 h₃ h.nameWord h₄ (by decide) r₃,
    ways_named 2 h₅ h.baseWord h₆ (by decide) r₄]

theorem isHeader_of_mem_ways {c e : Cursor} {qs : List Pattern}
    (mem : e ∈ (seqAll (headerThen qs)).ways c) :
    ∃ name base head r, IsHeader name base head ∧ c.rest = head ++ r := by
  obtain ⟨r₁, h₁, t₁, mem⟩ := mem_ways_chars_append mem
  obtain ⟨a, r₂, ha, h₂, d₂, t₂, mem⟩ := mem_ways_blanks_word mem
  obtain ⟨b, r₃, hb, h₃, d₃, t₃, mem⟩ := mem_ways_blanks_word mem
  obtain ⟨g, name, g', r₄, hg, hname, hg', h₄, d₄, t₄, mem⟩ := mem_ways_named mem
  obtain ⟨k, base, k', r₅, hk, hbase, hk', h₅, -⟩ := mem_ways_named mem
  refine ⟨name, base, _, r₅, ⟨hname, hbase, a, b, g, g', k, k', ha, hb, hg, hg', hk, hk', rfl⟩, ?_⟩
  rw [h₁, ← t₁, h₂, ← t₂, h₃, ← t₃, h₄, ← t₄, h₅]
  simp only [List.append_assoc, List.cons_append, List.nil_append]

/-! ### The body -/

theorem ways_closingRest_eq_nil {c : Cursor}
    (h : c.before = some '\n' → ¬ ['\x7d'] <+: c.rest) (inside : c.before.isSome = true) :
    (seqAll closingRest).ways c = [] := by
  rw [closingRest, ways_look_cons]
  split
  · next holds =>
    have newline : c.before = some '\n' := by
      rcases holds_lineStart.mp holds with first | newline
      · rw [first] at inside
        cases inside
      · exact newline
    rw [ways_seqAll_append, ways_chars_eq_nil (h newline)]
    rfl
  · rfl

theorem head?_ways_closingRest {c : Cursor} {r : List Char} (h : c.before = some '\n')
    (hrest : c.rest = '\x7d' :: r) :
    ∃ e, ((seqAll closingRest).ways c).head? = some e ∧ e.groups = c.groups := by
  rw [closingRest, ways_look_cons, if_pos (holds_lineStart.mpr (.inr h)),
    ways_chars_append (w := ['\x7d']) hrest]
  have own : c.past ['\x7d'] ∈ (star true (char (.single ';'))).ways (c.past ['\x7d']) :=
    mem_ways_star_char.mpr ⟨[], _, rfl, by simp, by simp⟩
  obtain ⟨e, more, hways⟩ := List.exists_cons_of_ne_nil (List.ne_nil_of_mem own)
  have member : e ∈ (star true (char (.single ';'))).ways (c.past ['\x7d']) := by simp [hways]
  obtain ⟨w, -, -, -, rfl⟩ := mem_ways_star_char.mp member
  refine ⟨_, ?_, Cursor.groups_past (c.past ['\x7d']) w⟩
  rw [seqAll, hways]
  rfl

theorem has_anything (x : Char) : (CharSet.ofItems [.blank, .compl .blank]).has x = true := by
  simp [CharSet.ofItems, CharSet.has]

/-- The body ends before the first brace at the start of a line. -/
theorem head?_ways_bodyThen {c : Cursor} {body r : List Char} (h : IsBody body)
    (hrest : c.rest = body ++ '\x7d' :: r) :
    ∃ e, ((seqAll bodyThen).ways c).head? = some e ∧ e.groups = (3, body) :: c.groups := by
  have full : body ≠ [] := by
    rintro rfl
    cases h.ended
  have fails : ∀ u, u ≠ [] → u <+: body → u ≠ body →
      (seqAll closingRest).ways (c.noting 3 u) = [] := by
    intro u fullu begins short
    obtain ⟨v, rfl⟩ := begins
    have behind : (c.noting 3 u).rest = v ++ '\x7d' :: r :=
      Cursor.rest_noting 3 (by rw [hrest, List.append_assoc])
    obtain ⟨x, hx⟩ : ∃ x, u.getLast? = some x := ⟨_, List.getLast?_eq_some_getLast fullu⟩
    have before : (c.noting 3 u).before = some x := by simp [Cursor.noting, Cursor.past, hx]
    refine ways_closingRest_eq_nil (fun newline closes => ?_) (by rw [before]; rfl)
    obtain rfl : x = '\n' := Option.some.inj (before.symm.trans newline)
    obtain ⟨u', rfl⟩ := List.getLast?_eq_some_iff.mp hx
    rw [behind] at closes
    cases v with
    | nil => exact short (List.append_nil _).symm
    | cons y v =>
      obtain ⟨rfl, -⟩ := List.cons_prefix_cons.mp closes
      exact h.unclosed u' v (by simp)
  obtain ⟨more, hmore⟩ := ways_group_plus_lazy_cons 3 full hrest (fun x _ => has_anything x) fails
  have before : (c.noting 3 body).before = some '\n' := by
    simp [Cursor.noting, Cursor.past, h.ended]
  obtain ⟨e, he, groups⟩ := head?_ways_closingRest before (Cursor.rest_noting 3 hrest)
  refine ⟨e, ?_, groups⟩
  rw [bodyThen, oneOf, hmore, List.head?_append, he]
  rfl

/-- Behind the start of a class there is a first brace at the start of a line, if there is one. -/
theorem exists_isBody {w : List Char} (ended : w.getLast? = some '\n') (r : List Char) :
    ∃ body after, w ++ '\x7d' :: r = body ++ '\x7d' :: after ∧ IsBody body := by
  generalize hn : w.length = n
  induction n using Nat.strongRecOn generalizing w r with
  | ind n ih =>
    by_cases closed : ∃ u v, w = u ++ '\n' :: '\x7d' :: v
    · obtain ⟨u, v, rfl⟩ := closed
      obtain ⟨body, after, split, isBody⟩ := ih (u ++ ['\n']).length
        (by rw [← hn]; simp) (by simp) (v ++ '\x7d' :: r) rfl
      exact ⟨body, after, by rw [← split]; simp, isBody⟩
    · exact ⟨w, r, rfl, ended, fun u v split => closed ⟨u, v, split⟩⟩

theorem exists_isBody_of_mem_ways {c e : Cursor} (mem : e ∈ (seqAll bodyThen).ways c) :
    ∃ body after, c.rest = body ++ '\x7d' :: after ∧ IsBody body := by
  obtain ⟨w, r₁, full, h₁, t₁, -, mem⟩ := mem_ways_group_plus_cons mem
  rw [closingRest, ways_look_cons] at mem
  split at mem
  · next holds =>
    obtain ⟨r, h₂, -⟩ := mem_ways_chars_append mem
    have ended : w.getLast? = some '\n' := by
      have last := List.getLast?_eq_some_getLast full
      have before : (c.noting 3 w).before = w.getLast? := by simp [Cursor.noting, Cursor.past, last]
      rcases holds_lineStart.mp holds with first | newline
      · rw [before, last] at first
        cases first
      · rw [← before, newline]
    obtain ⟨body, after, split, isBody⟩ := exists_isBody ended r
    refine ⟨body, after, ?_, isBody⟩
    rw [h₁, ← t₁, h₂, ← split]
    rfl
  · cases mem

/-! ### The class in a text -/

theorem matchAt_header {before : Option Char} {name base head body : List Char}
    (start : before = none ∨ before = some '\n') (header : IsHeader name base head)
    (hbody : IsBody body) (after : List Char) :
    ∃ t, headerPattern.matchAt before (head ++ (body ++ '\x7d' :: after)) =
      some ⟨t, [(3, body), (2, base), (1, name)]⟩ := by
  obtain ⟨d, ways, rest, groups⟩ :=
    ways_headerThen (c := .start before (head ++ (body ++ '\x7d' :: after))) header rfl bodyThen
  obtain ⟨e, first, groups'⟩ := head?_ways_bodyThen hbody rest
  rw [matchAt_eq_ways headerPattern_isTame, headerPattern_eq, ways_look_cons,
    Cursor.before_start, if_pos (holds_lineStart.mpr start), ways, first]
  exact ⟨e.taken, by rw [groups] at groups'; simp [Cursor.toMatch, groups', Cursor.start]⟩

theorem exists_header_of_matchAt {before : Option Char} {s : List Char} {m : Match}
    (h : headerPattern.matchAt before s = some m) :
    (before = none ∨ before = some '\n') ∧ ∃ name base head body after,
      s = head ++ (body ++ '\x7d' :: after) ∧ IsHeader name base head ∧ IsBody body ∧
      m.groups = [(3, body), (2, base), (1, name)] := by
  have matched := h
  rw [matchAt_eq_ways headerPattern_isTame, headerPattern_eq, ways_look_cons] at h
  obtain ⟨e, he, rfl⟩ := Option.map_eq_some_iff.mp h
  split at he
  · next holds =>
    have start : before = none ∨ before = some '\n' := holds_lineStart.mp holds
    have mem := List.mem_of_mem_head? he
    obtain ⟨name, base, head, r, header, hrest⟩ := isHeader_of_mem_ways mem
    rw [Cursor.rest_start] at hrest
    obtain ⟨d, ways, rest, groups⟩ := ways_headerThen (c := .start before s) header hrest bodyThen
    rw [ways] at mem
    obtain ⟨body, after, split, hbody⟩ := exists_isBody_of_mem_ways mem
    have whole : s = head ++ (body ++ '\x7d' :: after) := by rw [hrest, ← rest, split]
    obtain ⟨t, found⟩ := matchAt_header start header hbody after
    rw [← whole, matched] at found
    refine ⟨start, name, base, head, body, after, whole, header, hbody, ?_⟩
    rw [Option.some.inj found]
  · cases he

/-- Lines above a class. -/
structure IsPreamble (ls : List (List Char)) : Prop where
  lines : ∀ l ∈ ls, '\n' ∉ l
  silent : ∀ l ∈ ls, ¬ "module.exports".toList <+: l

instance (ls : List (List Char)) : Decidable (IsPreamble ls) :=
  decidable_of_iff ((∀ l ∈ ls, '\n' ∉ l) ∧ ∀ l ∈ ls, ¬ "module.exports".toList <+: l)
    ⟨fun h => ⟨h.1, h.2⟩, fun h => ⟨h.lines, h.silent⟩⟩

/-- The first header is found, with its body. -/
theorem find?_header {ls : List (List Char)} {name base head body : List Char} (hls : IsPreamble ls)
    (header : IsHeader name base head) (hbody : IsBody body) (after : List Char) :
    ∃ t, headerPattern.find? (unlines ls ++ (head ++ (body ++ '\x7d' :: after))) =
      some ⟨t, [(3, body), (2, base), (1, name)]⟩ := by
  obtain ⟨t, found⟩ := matchAt_header (getLast?_unlines ls) header hbody after
  refine ⟨t, find?_eq_some.mpr ⟨unlines ls, _, rfl, found, fun u v split short => ?_⟩⟩
  cases h : headerPattern.matchAt u.getLast? v with
  | none => rfl
  | some m =>
    obtain ⟨start, name', base', head', body', after', rfl, header', -⟩ :=
      exists_header_of_matchAt h
    obtain ⟨l, hl, t, line⟩ := exists_line_of_lineStart hls.lines split short start
    refine absurd (prefix_line (r := t) (by decide) ?_) (hls.silent l hl)
    rw [← line]
    exact header'.begins.trans (List.prefix_append _ _)

theorem parse_of_find? {contents t name base body : List Char}
    (h : headerPattern.find? contents = some ⟨t, [(3, body), (2, base), (1, name)]⟩) :
    parse contents =
      ((blocks body).mapM parseMethod).map (⟨String.ofList name, String.ofList base, ·⟩) := by
  rw [parse, h]
  rfl

/-- What is read from a text with a header. -/
theorem parse_eq {ls : List (List Char)} {name base head body : List Char} (hls : IsPreamble ls)
    (header : IsHeader name base head) (hbody : IsBody body) (after : List Char) :
    parse (unlines ls ++ (head ++ (body ++ '\x7d' :: after))) =
      ((blocks body).mapM parseMethod).map (⟨String.ofList name, String.ofList base, ·⟩) := by
  obtain ⟨t, found⟩ := find?_header hls header hbody after
  exact parse_of_find? found

theorem ofSource_eq_ok {file contents : String} {c : ClassDecl}
    (h : parse contents.toList = .ok c) : ofSource file contents = .ok c := by
  rw [ofSource, h]

theorem ofSource_eq_error {file contents : String} {flaw : Flaw}
    (h : parse contents.toList = .error flaw) :
    ofSource file contents = .error (flaw.failure file) := by
  rw [ofSource, h]

theorem parse_of_ofSource {file contents : String} {c : ClassDecl}
    (h : ofSource file contents = .ok c) : parse contents.toList = .ok c := by
  rw [ofSource] at h
  cases hparse : parse contents.toList with
  | error flaw =>
    rw [hparse] at h
    cases h
  | ok d =>
    rw [hparse] at h
    cases h
    rfl

/-- A text with a class in it has a header and a body. -/
theorem exists_of_parse {contents : List Char} {c : ClassDecl} (h : parse contents = .ok c) :
    ∃ before head body after, contents = before ++ (head ++ (body ++ '\x7d' :: after)) ∧
      (before.getLast? = none ∨ before.getLast? = some '\n') ∧
      IsHeader c.name.toList c.baseClass.toList head ∧ IsBody body ∧
      (headerPattern.find? contents).map (·.group 3) = some body ∧
      (blocks body).mapM parseMethod = .ok c.methods := by
  cases hfind : headerPattern.find? contents with
  | none =>
    rw [parse, hfind] at h
    cases h
  | some m =>
    obtain ⟨before, v, rfl, found, -⟩ := find?_eq_some.mp hfind
    obtain ⟨start, name, base, head, body, after, rfl, header, hbody, groups⟩ :=
      exists_header_of_matchAt found
    obtain ⟨t, gs⟩ := m
    obtain rfl : gs = [(3, body), (2, base), (1, name)] := groups
    rw [parse_of_find? hfind] at h
    cases hmethods : (blocks body).mapM parseMethod with
    | error flaw =>
      rw [hmethods] at h
      cases h
    | ok methods =>
      rw [hmethods] at h
      cases h
      refine ⟨before, head, body, after, rfl, start, ?_, hbody, rfl, hmethods⟩
      simpa using header

end Polyglot.ClassDecl

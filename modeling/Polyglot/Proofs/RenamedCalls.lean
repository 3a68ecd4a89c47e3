import Polyglot.Proofs.CallSites
import Polyglot.Proofs.Spelling
import Polyglot.Render.Class

/-!
Calls of own methods and of glossary names, renamed in a text. Both kinds of renames are instances
of `CallForm`: an own call is written on the receiver of its target and gets the separator that the
target's signatures have; a call of a glossary name follows a dot and keeps its blanks.
-/

namespace Polyglot

open Text

namespace Name

open Pattern

/-! ### Own methods -/

/-- What makes the calls of a style legible from their end on. -/
structure CallStyle.IsPlain (style : CallStyle) : Prop where
  open_ : '(' ∉ style.receiver.toList
  closed : style.receiver.toList.getLast?.any isAsciiWord = false
  full : style.receiver.toList ≠ []
  gap : IsGap style.separator.toList

def CallStyle.form (style : CallStyle) (plain : style.IsPlain) : CallForm where
  receiver := style.receiver.toList
  spacing _ := style.separator.toList
  open_ := plain.open_
  closed := plain.closed
  full := plain.full
  isGap_spacing _ _ := plain.gap
  spacing_spacing _ := rfl

section Own

variable {style : CallStyle} {method : String}

theorem CallStyle.callPattern_eq (style : CallStyle) (method : String) :
    style.callPattern method = seqAll (chars style.receiver.toList ++
      (group 1 (seqAll (chars method.toList)) :: blanks :: (chars ['('] ++ []))) := by
  simp [callPattern, text, List.append_assoc]

theorem CallStyle.mem_ways_callPattern {c e : Cursor}
    (mem : e ∈ (style.callPattern method).ways c) :
    ∃ gap r, IsGap gap ∧ c.rest = style.receiver.toList ++ (method.toList ++ gap) ++ '(' :: r := by
  rw [callPattern_eq] at mem
  obtain ⟨r₁, h₁, t₁, mem⟩ := mem_ways_chars_append mem
  obtain ⟨r₂, h₂, t₂, mem⟩ := mem_ways_group_chars_cons mem
  obtain ⟨gap, r₃, h₃, t₃, hgap, mem⟩ := mem_ways_star_cons mem
  obtain ⟨r, h₄, -, -⟩ := mem_ways_chars_append mem
  refine ⟨gap, r, hgap, ?_⟩
  rw [h₁, ← t₁, h₂, ← t₂, h₃, ← t₃, h₄]
  simp only [List.append_assoc, List.singleton_append]

theorem CallStyle.ways_callPattern {c : Cursor} {gap r : List Char} (hgap : IsGap gap)
    (h : c.rest = style.receiver.toList ++ (method.toList ++ gap) ++ '(' :: r) :
    (style.callPattern method).ways c =
      [(((c.past style.receiver.toList).noting 1 method.toList).past gap).past ['(']] := by
  have h₀ : c.rest = style.receiver.toList ++ (method.toList ++ (gap ++ (['('] ++ r))) := by
    simpa only [List.append_assoc, List.singleton_append] using h
  have h₁ := Cursor.rest_past h₀
  have h₂ := Cursor.rest_noting 1 h₁
  rw [callPattern_eq, ways_chars_append h₀, ways_group_chars_cons 1 h₁, blanks,
    ways_star_cons .blank (bars_chars [] (by decide)) h₂ hgap rfl,
    ways_chars_append (Cursor.rest_past h₂)]
  rfl

theorem CallStyle.isTame_callPattern (style : CallStyle) (method : String) :
    (style.callPattern method).isTame = true := by
  simp [callPattern, text, blanks, isTame, endsInChar]

theorem CallStyle.matches_callPattern (plain : style.IsPlain) :
    (style.form plain).Matches method.toList (style.callPattern method) style.renamed where
  tame := isTame_callPattern style method
  blind := by simp [callPattern, text, blanks, Pattern.looks]
  solid := by simp [callPattern, text, Pattern.nullable, chars]
  sound s m found := by
    obtain ⟨e, mem⟩ :=
      (isSome_matchAt_iff (isTame_callPattern style method)).mp (Option.isSome_of_eq_some found)
    exact mem_ways_callPattern mem
  complete gap r hgap := by
    refine ⟨⟨(style.form plain).lead method.toList gap ++ ['('], [(1, method.toList)]⟩, ?_, rfl, ?_⟩
    · rw [matchAt_eq_ways (isTame_callPattern style method), ways_callPattern hgap rfl]
      simp [Cursor.toMatch, Cursor.noting, Cursor.past, Cursor.start, CallForm.lead, form]
    · simp [renamed, Match.group, Match.group?, CallForm.lead, form]

theorem CallStyle.renameCalls_eq (style : CallStyle) (methods : List String) (s : List Char) :
    style.renameCalls methods s =
      CallForm.renameAll (fun m => (style.callPattern m).replaceAll style.renamed) methods s := rfl

theorem CallStyle.isStep_renamed (plain : style.IsPlain) {methods : List String}
    (camel : ∀ m ∈ methods, isCamel m.toList = true) :
    ∀ m ∈ methods,
      (style.form plain).IsStep m.toList ((style.callPattern m).replaceAll style.renamed) :=
  fun m hm => (matches_callPattern plain).isStep (isAsciiName_of_isCamel (camel m hm))

/-- The calls of a method on the object itself, with the text that spells them. -/
def CallStyle.callMatcher (style : CallStyle) (method : String) : Matcher :=
  ⟨quote style.receiver ++ "(" ++ quote method ++ r")\s*\(", style.callPattern method, []⟩

/-- A receiver, a name in a group, and an opening parenthesis behind blanks. -/
def CallStyle.callForms (style : CallStyle) (method : String) (k : Nat) : List Form :=
  Form.ofChars style.receiver.toList ++
    (.group (k + 1) (.join (Form.ofChars method.toList)) :: Pattern.callForms)

theorem CallStyle.patterns_callForms (style : CallStyle) (method : String) :
    seqAll ((style.callForms method 0).flatMap Form.patterns) = style.callPattern method := by
  have name : (Form.join (Form.ofChars method.toList)).patterns = chars method.toList := by
    rw [Form.patterns_join Form.isSingle_of_mem_ofChars, Form.patterns_ofChars]
  rw [callPattern_eq, callForms, List.flatMap_append, Form.patterns_ofChars, List.flatMap_cons,
    Pattern.patterns_callForms, Form.patterns, name]
  rfl

theorem CallStyle.writes_callMatcher (style : CallStyle) (method : String) :
    Writes (style.callMatcher method).source.toList 1 2 (style.callForms method) := by
  have written : (style.callMatcher method).source.toList = quoteChars style.receiver.toList ++
      (('(' :: (quoteChars method.toList ++ [')'])) ++ r"\s*\(".toList) := by
    simp [callMatcher, toList_quote]
  have plain : (quoteChars method.toList).head? ≠ some '?' := by
    simpa using head?_quoteChars_append method.toList (r := []) (by decide)
  rw [written]
  exact (writes_quote style.receiver.toList).append
    (((writes_quote method.toList).captured plain).append writes_call)

theorem CallStyle.ofSource_callMatcher
    (short : style.receiver.length + method.length ≤ maxQuoted) :
    Matcher.ofSource (style.callMatcher method).source = .ok (style.callMatcher method) := by
  refine Matcher.ofSource_of_writes (writes_callMatcher style method) (by decide) rfl
    (patterns_callForms style method) ?_
  have receiver := Form.totalBytes_ofChars_le style.receiver.toList
  have name := Form.bytes_join_le (Form.isSingle_of_mem_ofChars (w := method.toList))
  have method := Form.totalBytes_ofChars_le method.toList
  rw [callForms, Form.totalBytes_append, Form.totalBytes_cons, totalBytes_callForms, Form.bytes]
  rw [String.length_toList] at receiver method
  simp only [maxQuoted, Form.maxBytes] at short ⊢
  omega

/-- Renaming on a receiver that is quoted is renaming on that receiver. -/
theorem CallStyle.renameCallsOn_quote {methods : List String}
    (short : ∀ m ∈ methods, style.receiver.length + m.length ≤ maxQuoted) (s : List Char) :
    style.renameCallsOn (quote style.receiver) methods s = .ok (style.renameCalls methods s) := by
  induction methods generalizing s with
  | nil => rfl
  | cons m methods ih =>
    obtain ⟨first, others⟩ := List.forall_mem_cons.mp short
    have read : Matcher.ofSource (quote style.receiver ++ "(" ++ quote m ++ r")\s*\(") =
        .ok (style.callMatcher m) := ofSource_callMatcher first
    have rest := ih others ((style.callPattern m).replaceAll style.renamed s)
    rw [renameCallsOn, renameCalls] at rest ⊢
    rw [List.foldlM_cons, List.foldl_cons, read]
    exact rest

end Own

/-! ### Glossary names -/

/-- A member is called behind a dot, and the blanks behind its name stay. -/
def memberForm : CallForm where
  receiver := ['.']
  spacing gap := gap
  open_ := by decide
  closed := by decide
  full := by decide
  isGap_spacing _ hgap := hgap
  spacing_spacing _ := rfl

section Member

variable {e : Entry}

theorem Entry.callPattern_eq (e : Entry) :
    e.callRule.matcher.pattern = seqAll (chars ('.' :: e.camel.toList) ++
      [group 1 (seqAll (blanks :: (chars ['('] ++ [])))]) := rfl

theorem Entry.isTame_callPattern (e : Entry) : e.callRule.matcher.pattern.isTame = true := by
  simp [callPattern_eq, blanks, isTame, endsInChar]

theorem Entry.mem_ways_callPattern {c d : Cursor} (mem : d ∈ e.callRule.matcher.pattern.ways c) :
    ∃ gap r, IsGap gap ∧ c.rest = memberForm.lead e.camel.toList gap ++ '(' :: r := by
  rw [callPattern_eq] at mem
  obtain ⟨r₁, h₁, t₁, mem⟩ := mem_ways_chars_append mem
  rw [ways_group_cons] at mem
  obtain ⟨d', inner, -⟩ := List.mem_flatMap.mp mem
  obtain ⟨gap, r₂, h₂, t₂, hgap, inner⟩ := mem_ways_star_cons inner
  obtain ⟨r, h₃, -, -⟩ := mem_ways_chars_append inner
  refine ⟨gap, r, hgap, ?_⟩
  have behind : r₁ = gap ++ (['('] ++ r) := by
    rw [← t₁, ← h₃, t₂]
    exact h₂
  rw [h₁, behind, CallForm.lead]
  simp [memberForm]

/-- Calls are renamed behind a dot only. -/
theorem Glossary.not_isMatch_callRules (glossary : Glossary) {s : List Char} (dotless : '.' ∉ s) :
    ∀ rule ∈ glossary.callRules.rules, rule.isMatch s = false := by
  intro rule mem
  obtain ⟨entry, -, rfl⟩ := List.mem_map.mp mem
  refine Bool.eq_false_iff.mpr fun found => dotless ?_
  obtain ⟨u, t, rfl, here⟩ := isMatch_iff.mp found
  obtain ⟨e, mem⟩ := (isSome_matchAt_iff entry.isTame_callPattern).mp here
  obtain ⟨gap, r, -, rest⟩ := Entry.mem_ways_callPattern mem
  rw [show t = _ from rest]
  simp [CallForm.lead, memberForm]

theorem Entry.ways_callPattern {c : Cursor} {gap r : List Char} (hgap : IsGap gap)
    (h : c.rest = memberForm.lead e.camel.toList gap ++ '(' :: r) :
    e.callRule.matcher.pattern.ways c =
      [(c.past ('.' :: e.camel.toList)).noting 1 (gap ++ ['('])] := by
  have h₀ : c.rest = '.' :: e.camel.toList ++ (gap ++ (['('] ++ r)) := by
    simpa [CallForm.lead, memberForm] using h
  have h₁ : (c.past ('.' :: e.camel.toList)).enter.rest = gap ++ (['('] ++ r) := Cursor.rest_past h₀
  have inner :
      (seqAll (blanks :: (chars ['('] ++ []))).ways (c.past ('.' :: e.camel.toList)).enter =
      [(c.past ('.' :: e.camel.toList)).enter.past (gap ++ ['('])] := by
    rw [blanks, ways_star_cons .blank (bars_chars [] (by decide)) h₁ hgap rfl,
      ways_chars_append (Cursor.rest_past h₁), Cursor.past_past]
    rfl
  rw [callPattern_eq, ways_chars_append h₀, ways_group_cons, inner, List.flatMap_singleton,
    Cursor.leave_past_enter]
  rfl

/-- The template puts the new name for the old and keeps the group behind it. -/
theorem Entry.expand_template (e : Entry) (plain : '$' ∉ e.snake.toList) (m : Match) :
    Template.expand [] (Template.parts e.callRule.template.toList) m =
      '.' :: e.snake.toList ++ m.group 1 := by
  have spelled : e.callRule.template.toList = '.' :: e.snake.toList ++ "${1}".toList := by
    simp [callRule]
  have free : '$' ∉ '.' :: e.snake.toList := by simpa using plain
  have reference : Template.partsFrom 0 "${1}".toList = [.group 1] := by decide +kernel
  rw [spelled, Template.parts, Template.partsFrom_append free, reference, Template.expand_append,
    Template.expand_chars]
  simp [Template.expand, Template.Part.expand]

theorem underscored_eq_self {name : String} (same : underscoredChars name.toList = name.toList) :
    underscored name = name := by
  rw [underscored, same, String.ofList_toList]

theorem not_mem_underscored {name : String} (camel : isCamel name.toList = true) :
    '$' ∉ (underscored name).toList := by
  rw [underscored, String.toList_ofList]
  intro mem
  have word := (isAsciiName_underscoredChars (isAsciiName_of_isCamel camel)).word _ mem
  exact absurd word (by decide)

theorem Entry.solid_callPattern (e : Entry) : e.callRule.matcher.pattern.nullable = false := by
  simp [Entry.callPattern_eq, Pattern.nullable, chars]

theorem matches_callRule {name : String} (camel : isCamel name.toList = true) :
    memberForm.Matches name.toList (Entry.mk name (underscored name)).callRule.matcher.pattern
      (Template.expand []
        (Template.parts (Entry.mk name (underscored name)).callRule.template.toList)) where
  tame := Entry.isTame_callPattern _
  blind := by simp [Entry.callPattern_eq, blanks, Pattern.looks]
  solid := Entry.solid_callPattern _
  sound s m found := by
    obtain ⟨d, mem⟩ :=
      (isSome_matchAt_iff (Entry.isTame_callPattern _)).mp (Option.isSome_of_eq_some found)
    exact Entry.mem_ways_callPattern mem
  complete gap r hgap := by
    refine ⟨⟨memberForm.lead name.toList gap ++ ['('], [(1, gap ++ ['('])]⟩, ?_, rfl, ?_⟩
    · rw [matchAt_eq_ways (Entry.isTame_callPattern _), Entry.ways_callPattern hgap rfl]
      simp [Cursor.toMatch, Cursor.noting, Cursor.past, Cursor.start, CallForm.lead, memberForm]
    · rw [Entry.expand_template ⟨name, underscored name⟩ (not_mem_underscored camel)]
      simp [Match.group, Match.group?, CallForm.lead, memberForm, underscored]

theorem Glossary.applyChars_callRules (names : List String) (s : List Char) :
    (ofNames names).callRules.applyChars s =
      CallForm.renameAll (fun m => (Entry.mk m (underscored m)).callRule.apply) names s := by
  rw [callRules, Ruleset.applyChars, ofNames, List.map_map, List.foldl_map]
  rfl

theorem Entry.apply_callRule (e : Entry) : e.callRule.apply =
    e.callRule.matcher.pattern.replaceAll
      (Template.expand [] (Template.parts e.callRule.template.toList)) := rfl

theorem Glossary.isStep_callRule {names : List String}
    (camel : ∀ m ∈ names, isCamel m.toList = true) :
    ∀ m ∈ names, memberForm.IsStep m.toList (Entry.mk m (underscored m)).callRule.apply := by
  intro m hm
  rw [Entry.apply_callRule]
  exact (matches_callRule (camel m hm)).isStep (isAsciiName_of_isCamel (camel m hm))

theorem fixed_call : Fixed r"\s*\(".toList (.join Pattern.callForms) 2 where
  read := by decide +kernel
  flat _ := rfl
  finished := by decide +kernel
  plain := by decide

/-- A dot, a name, and in a group an opening parenthesis behind blanks. -/
def Entry.callForms (e : Entry) (k : Nat) : List Form :=
  Form.ofChars ('.' :: e.camel.toList) ++ [.group (k + 1) (.join Pattern.callForms)]

theorem Entry.patterns_callForms (e : Entry) :
    seqAll ((e.callForms 0).flatMap Form.patterns) = e.callRule.matcher.pattern := by
  rw [callPattern_eq, callForms, List.flatMap_append, Form.patterns_ofChars]
  rfl

theorem Entry.writes_callRule (e : Entry) :
    Writes e.callRule.matcher.source.toList 1 3 e.callForms := by
  have written : e.callRule.matcher.source.toList =
      quoteChars ('.' :: e.camel.toList) ++ '(' :: (r"\s*\(".toList ++ [')']) := by
    simp [callRule, toList_quote, quoteChars, isMeta]
  rw [written]
  exact (writes_quote ('.' :: e.camel.toList)).append fixed_call.writes

/-- The rule of an entry is the one that its texts spell. -/
theorem Entry.ofTexts_callRule (e : Entry) (short : e.camel.length < maxQuoted) :
    Rule.ofTexts e.callRule.matcher.source e.callRule.template = .ok e.callRule := by
  have size := Form.totalBytes_ofChars_le ('.' :: e.camel.toList)
  have call : Form.totalBytes [.group 1 (.join Pattern.callForms)] = 8936 := by decide +kernel
  have small : 240 + Form.totalBytes (e.callForms 0) ≤ Form.maxBytes := by
    rw [callForms, Form.totalBytes_append, call]
    rw [List.length_cons, String.length_toList] at size
    simp only [maxQuoted, Form.maxBytes] at short ⊢
    omega
  rw [Rule.ofTexts, Matcher.ofSource_of_writes e.writes_callRule
    (by decide) rfl e.patterns_callForms small]

end Member

/-- The rules of a glossary together are one substitution: each call of a listed member gets the
converted name and keeps its blanks, and nothing else changes. So the order of the names does not
matter, and no call of a member that the conversion changes is left. -/
theorem Glossary.callRules_substitute (names : List String)
    (camel : ∀ m ∈ names, isCamel m.toList = true) (text : String) :
    (∀ t : String, Substituted (memberForm.Renames names) text.toList t.toList ↔
      t = (ofNames names).callRules.apply text) ∧
    (∀ names' : List String, (∀ m, m ∈ names' ↔ m ∈ names) →
      (ofNames names').callRules.apply text = (ofNames names).callRules.apply text) ∧
    (∀ m ∈ names, underscored m ≠ m → ∀ gap, IsGap gap → ∀ u r,
      ((ofNames names).callRules.apply text).toList ≠
        u ++ (memberForm.lead m.toList gap ++ '(' :: r)) ∧
    ∀ e ∈ ofNames names, e.camel.length < maxQuoted →
      Rule.ofTexts e.callRule.matcher.source e.callRule.template = .ok e.callRule := by
  have steps := isStep_callRule camel
  have applied (names : List String) : ((ofNames names).callRules.apply text).toList =
      CallForm.renameAll (fun m => (Entry.mk m (underscored m)).callRule.apply)
      names text.toList := by
    rw [Ruleset.apply, String.toList_ofList, applyChars_callRules]
  refine ⟨fun t => ?_, fun names' same => ?_, fun m hm changed gap hgap u r => ?_,
    fun e _ => e.ofTexts_callRule⟩
  · rw [CallForm.substituted_iff camel steps, ← applied, String.toList_inj]
  · rw [← String.toList_inj, applied, applied, CallForm.renameAll_congr camel steps same]
  · rw [applied]
    exact CallForm.renameAll_ne_call camel steps hm
      (fun same => changed (underscored_eq_self same)) hgap _ u r

/-- The names that all classes share, some of which begin with others. -/
theorem Glossary.callRules_substitute_standard :
    (∀ m ∈ standard, isCamel m.toList = true) ∧
    Substituted (memberForm.Renames standard) "this.fetchOrderBook (a.fetchOrder(b))".toList
      ((ofNames standard).callRules.apply "this.fetchOrderBook (a.fetchOrder(b))").toList ∧
    (ofNames standard.reverse).callRules.apply "this.fetchOrderBook (a.fetchOrder(b))" =
      (ofNames standard).callRules.apply "this.fetchOrderBook (a.fetchOrder(b))" := by
  have camel : ∀ m ∈ standard, isCamel m.toList = true := by decide +kernel
  obtain ⟨substituted, unordered, -⟩ :=
    callRules_substitute standard camel "this.fetchOrderBook (a.fetchOrder(b))"
  exact ⟨camel, (substituted _).mpr rfl, unordered _ fun m => List.mem_reverse⟩

example : (Glossary.ofNames ["fetchOrder", "fetchOrderBook"]).callRules.apply
    "this.fetchOrderBook (a.fetchOrder(b), a.fetchOrders (c))" =
      "this.fetch_order_book (a.fetch_order(b), a.fetchOrders (c))" := by
  decide +kernel

end Name

/-! ### Own methods in a target -/

namespace Renderer

/-- How a target writes the calls of own methods. -/
def ownCalls (target : Target) : Name.CallStyle :=
  if target.isPython then pythonCalls else phpCalls

theorem isPlain_ownCalls (target : Target) : (ownCalls target).IsPlain := by
  cases target
  all_goals exact ⟨by decide, by decide, by decide, by decide⟩

def ownForm (target : Target) : CallForm :=
  (ownCalls target).form (isPlain_ownCalls target)

theorem append_space_paren (s t : String) : s ++ " (" ++ t = s ++ " " ++ "(" ++ t := by
  have split : " (" = " " ++ "(" := by decide
  rw [split, ← String.append_assoc]

/-- Signatures and calls of a target have the same name and the same separator. -/
theorem exists_signature (target : Target) (m : Method) :
    ∃ keyword ∈ ["def ", "async def ", "public function "], ∃ arguments,
      signature target m =
        keyword ++ Name.underscored m.name ++ (ownCalls target).separator ++ "(" ++ arguments := by
  cases python : target.isPython with
  | true =>
    have style : ownCalls target = pythonCalls := if_pos python
    have printed : signature target m = Render.Python.signature target m := if_pos python
    refine ⟨(if m.isAsync && target.isAsync then "async " else "") ++ "def ", ?_,
      ", ".intercalate
      ("self" :: m.parameters.map (Render.argument "" "=" Render.Python.literals)) ++ "):", ?_⟩
    · split
      · exact List.mem_cons_of_mem _ List.mem_cons_self
      · exact List.mem_cons_self
    · rw [style, printed, pythonCalls, String.append_empty]
      exact String.append_assoc
  | false =>
    have style : ownCalls target = phpCalls := if_neg (by simp [python])
    have printed : signature target m = Render.Php.signature m := if_neg (by simp [python])
    refine ⟨"public function ", by simp, ", ".intercalate (m.parameters.map
      (Render.argument "$" " = " Render.Php.literals)) ++ ") \x7b", ?_⟩
    rw [style, printed]
    exact String.append_assoc.trans (append_space_paren _ _)

/-- The calls of own methods are renamed by one substitution, in which the order of the methods does
not matter. A call of a method is written with the name and the blank that its definition has,
whatever blanks stood before its parenthesis. -/
theorem renameCalls_substitutes (target : Target) (methods : List String)
    (camel : ∀ m ∈ methods, Name.isCamel m.toList = true) (s : List Char) :
    (∀ t, Substituted ((ownForm target).Renames methods) s t ↔
      t = (ownCalls target).renameCalls methods s) ∧
    (∀ methods' : List String, (∀ m, m ∈ methods' ↔ m ∈ methods) →
      (ownCalls target).renameCalls methods' s = (ownCalls target).renameCalls methods s) ∧
    (∀ m : Method, m.name ∈ methods →
      ∃ keyword ∈ ["def ", "async def ", "public function "], ∃ arguments,
        signature target m =
          keyword ++ Name.underscored m.name ++ (ownCalls target).separator ++ "(" ++ arguments ∧
        ∀ gap, IsGap gap → ∀ u r,
          (ownCalls target).renameCalls methods
              (u ++ ((ownForm target).lead m.name.toList gap ++ '(' :: r)) =
            (ownCalls target).renameCalls methods u ++
              ((ownForm target).lead (Name.underscored m.name).toList
                (ownCalls target).separator.toList ++
                  '(' :: (ownCalls target).renameCalls methods r)) ∧
    (∀ m ∈ methods, Name.underscored m ≠ m → ∀ gap, IsGap gap → ∀ u r,
      (ownCalls target).renameCalls methods s ≠
        u ++ ((ownForm target).lead m.toList gap ++ '(' :: r)) ∧
    ((∀ m ∈ methods, (ownCalls target).receiver.length + m.length ≤ Pattern.maxQuoted) →
      (ownCalls target).renameCallsOn (Pattern.quote (ownCalls target).receiver) methods s =
        .ok ((ownCalls target).renameCalls methods s)) := by
  have steps := Name.CallStyle.isStep_renamed (isPlain_ownCalls target) camel
  simp only [Name.CallStyle.renameCalls_eq]
  refine ⟨fun t => ?_, fun methods' same => ?_, fun m hm => ?_, fun m hm changed gap hgap u r => ?_,
    fun short => ?_⟩
  · exact CallForm.substituted_iff camel steps
  · exact CallForm.renameAll_congr camel steps same s
  · obtain ⟨keyword, known, arguments, signed⟩ := exists_signature target m
    refine ⟨keyword, known, arguments, signed, fun gap hgap u r => ?_⟩
    rw [Name.underscored, String.toList_ofList]
    exact CallForm.renameAll_append_call camel steps hm hgap u r
  · exact CallForm.renameAll_ne_call camel steps hm
      (fun same => changed (Name.underscored_eq_self same)) hgap s u r
  · exact Name.CallStyle.renameCallsOn_quote short s

/-- The new name of the first method is the name of the second. -/
theorem renameCalls_substitutes_listed :
    (∀ m ∈ ["IDs", "ids", "sign"], Name.isCamel m.toList = true) ∧
    Substituted ((ownForm .php).Renames ["IDs", "ids", "sign"])
      "this->sign(this->IDs  (this->ids, ids(a)))".toList
      "this->sign (this->ids (this->ids, ids(a)))".toList := by
  have camel : ∀ m ∈ ["IDs", "ids", "sign"], Name.isCamel m.toList = true := by decide
  have applied : "this->sign (this->ids (this->ids, ids(a)))".toList =
      (ownCalls .php).renameCalls ["IDs", "ids", "sign"]
        "this->sign(this->IDs  (this->ids, ids(a)))".toList := by
    decide +kernel
  exact ⟨camel, ((renameCalls_substitutes .php _ camel _).1 _).mpr applied⟩

end Renderer

end Polyglot

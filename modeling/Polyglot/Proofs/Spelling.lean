import Polyglot.Proofs.TokenRuns

/-!
Patterns made of pieces: quoted texts and groups. A piece is read in the same way whatever stands
before and behind it, and adds forms of its own to the draft (`Writes`). So a source that is put
together from pieces spells a known pattern, whatever the texts are that are quoted in it; only its
size may be refused (`Writes.ofSource`).
-/

namespace Polyglot

/-! ### Forms one after another -/

namespace Form

/-- A form that is neither a sequence nor an alternative. -/
def isSingle : Form → Bool
  | empty => false
  | seq _ _ => false
  | alt _ _ => false
  | _ => true

theorem parts_of_isSingle {f : Form} (h : f.isSingle = true) : f.parts = [f] := by
  cases f <;> first | rfl | cases h

theorem branches_of_isSingle {f : Form} (h : f.isSingle = true) : f.branches = [f] := by
  cases f <;> first | rfl | cases h

theorem flatMap_parts {fs : List Form} (h : ∀ f ∈ fs, f.isSingle = true) :
    fs.flatMap parts = fs := by
  induction fs with
  | nil => rfl
  | cons f fs ih =>
    obtain ⟨first, others⟩ := List.forall_mem_cons.mp h
    rw [List.flatMap_cons, parts_of_isSingle first, ih others]
    rfl

theorem isSingle_of_mem_glue {f : Form} {fs : List Form} (h : f.isSingle = true)
    (hs : ∀ g ∈ fs, g.isSingle = true) : ∀ g ∈ glue f fs, g.isSingle = true := by
  unfold glue
  split
  · exact List.forall_mem_cons.mpr ⟨rfl, (List.forall_mem_cons.mp hs).2⟩
  · exact List.forall_mem_cons.mpr ⟨h, hs⟩

theorem isSingle_of_mem_foldr_glue {fs : List Form} (h : ∀ f ∈ fs, f.isSingle = true) :
    ∀ g ∈ fs.foldr glue [], g.isSingle = true := by
  induction fs with
  | nil => exact h
  | cons f fs ih =>
    obtain ⟨first, others⟩ := List.forall_mem_cons.mp h
    exact isSingle_of_mem_glue first (ih others)

/-- Forms one after another are no alternative. -/
theorem branches_join {fs : List Form} (h : ∀ f ∈ fs, f.isSingle = true) :
    (join fs).branches = [join fs] := by
  have singles := isSingle_of_mem_foldr_glue h
  rw [join, flatMap_parts h]
  generalize fs.foldr glue [] = gs at singles ⊢
  cases gs with
  | nil => rfl
  | cons g gs =>
    cases gs with
    | nil => exact branches_of_isSingle (singles g List.mem_cons_self)
    | cons => rfl

theorem choose_singleton {f : Form} (one : f.branches = [f]) (fuel : Nat) :
    choose fuel [f] = f := by
  unfold choose
  simp only [List.flatMap_cons, List.flatMap_nil, List.append_nil, one]

theorem patterns_ofParts (fs : List Form) : (ofParts fs).patterns = fs.flatMap patterns := by
  induction fs with
  | nil => rfl
  | cons f fs ih =>
    cases fs with
    | nil => simp [ofParts]
    | cons g fs =>
      rw [List.flatMap_cons, ← ih]
      rfl

theorem patterns_glue (f : Form) (fs : List Form) :
    (glue f fs).flatMap patterns = f.patterns ++ fs.flatMap patterns := by
  unfold glue
  split
  · rw [List.flatMap_cons, List.flatMap_cons, ← List.append_assoc]
    exact congrArg (· ++ _) List.map_append
  · rfl

/-- Forms grow together, and the patterns stay what they were. -/
theorem patterns_join {fs : List Form} (h : ∀ f ∈ fs, f.isSingle = true) :
    (join fs).patterns = fs.flatMap patterns := by
  rw [join, flatMap_parts h, patterns_ofParts]
  clear h
  induction fs with
  | nil => rfl
  | cons f fs ih => rw [List.foldr_cons, patterns_glue, ih, List.flatMap_cons]

/-! ### Sizes -/

/-- A bound for the sizes of forms together. -/
def totalBytes (fs : List Form) : Nat :=
  fs.foldr (fun f bytes => f.bytes CharSet.roughBytes 64 + bytes) 0

theorem totalBytes_cons (f : Form) (fs : List Form) :
    totalBytes (f :: fs) = f.bytes CharSet.roughBytes 64 + totalBytes fs := rfl

theorem totalBytes_append (fs gs : List Form) :
    totalBytes (fs ++ gs) = totalBytes fs + totalBytes gs := by
  induction fs with
  | nil => simp [totalBytes]
  | cons f fs ih => rw [List.cons_append, totalBytes_cons, totalBytes_cons, ih, Nat.add_assoc]

theorem foldl_utf8Size (w : List Char) (n : Nat) :
    w.foldl (fun bytes c => bytes + c.utf8Size) n =
      n + w.foldl (fun bytes c => bytes + c.utf8Size) 0 := by
  induction w generalizing n with
  | nil => rfl
  | cons c w ih =>
    rw [List.foldl_cons, List.foldl_cons, ih (n + _), ih (0 + _), Nat.zero_add, Nat.add_assoc]

theorem totalBytes_glue (f : Form) (fs : List Form) :
    totalBytes (glue f fs) = totalBytes (f :: fs) := by
  unfold glue
  split
  · simp only [totalBytes_cons, bytes, List.foldl_append]
    rw [foldl_utf8Size _ (List.foldl _ _ _), Nat.mul_add, Nat.add_assoc]
  · rfl

theorem bytes_ofParts_le (fs : List Form) :
    (ofParts fs).bytes CharSet.roughBytes 64 ≤ 32 + totalBytes fs := by
  induction fs with
  | nil => exact Nat.le_refl _
  | cons f fs ih =>
    rw [totalBytes_cons]
    cases fs with
    | nil => exact Nat.le_add_left _ _
    | cons g fs =>
      change f.bytes CharSet.roughBytes 64 + (ofParts (g :: fs)).bytes CharSet.roughBytes 64 ≤ _
      omega

theorem bytes_join_le {fs : List Form} (h : ∀ f ∈ fs, f.isSingle = true) :
    (join fs).bytes CharSet.roughBytes 64 ≤ 32 + totalBytes fs := by
  have glued : totalBytes (fs.foldr glue []) = totalBytes fs := by
    clear h
    induction fs with
    | nil => rfl
    | cons f fs ih => rw [List.foldr_cons, totalBytes_glue, totalBytes_cons, totalBytes_cons, ih]
  rw [join, flatMap_parts h, ← glued]
  exact bytes_ofParts_le _

theorem fits_join {fs : List Form} (h : ∀ f ∈ fs, f.isSingle = true)
    (small : 240 + totalBytes fs ≤ maxBytes) : (join fs).fits = true := by
  have bound := bytes_join_le h
  have enough : 208 + (join fs).bytes CharSet.roughBytes 64 ≤ maxBytes := by omega
  simp only [fits, enough, decide_true, Bool.true_or]

/-! ### Texts, character by character -/

/-- A text as it is read. -/
def ofChars (w : List Char) : List Form :=
  w.map fun c => text [c]

theorem isSingle_of_mem_ofChars {w : List Char} : ∀ f ∈ ofChars w, f.isSingle = true := by
  intro f mem
  obtain ⟨c, -, rfl⟩ := List.mem_map.mp mem
  rfl

theorem patterns_ofChars (w : List Char) : (ofChars w).flatMap patterns = Pattern.chars w := by
  rw [ofChars, List.flatMap_map]
  exact List.flatMap_pure_eq_map _ _

theorem totalBytes_ofChars_le (w : List Char) : totalBytes (ofChars w) ≤ 128 * w.length := by
  induction w with
  | nil => exact Nat.le_refl _
  | cons c w ih =>
    have size : (text [c]).bytes CharSet.roughBytes 64 = 32 * (0 + c.utf8Size) := rfl
    have first := c.utf8Size_le_four
    change (text [c]).bytes CharSet.roughBytes 64 + totalBytes (ofChars w) ≤ _
    rw [List.length_cons, size]
    omega

end Form

namespace Pattern

/-- How long the texts that are quoted in a pattern may be. A character takes up to 128 of its
bytes, and the rest is enough for what stands around the texts. -/
def maxQuoted : Nat := 80000

theorem toList_quote (s : String) : (quote s).toList = quoteChars s.toList := by
  rw [quote, String.toList_ofList]

/-! ### Pieces -/

/-- The forms of items in their order. -/
def Items.forms (items : Items) : List Form :=
  items.reverse.filterMap fun item => item.map Nested.form

theorem Items.forms_append (items items' : Items) :
    forms (items ++ items') = forms items' ++ forms items := by
  simp only [forms, List.reverse_append, List.filterMap_append]

/-- The tokens add items to every draft, nested at most so deep. Their forms depend on the number of
groups that are there already. -/
def Adds (ts : List Token) (groups depth : Nat) (forms : Nat → List Form) : Prop :=
  ∀ d : Draft, ∃ items : Items,
    ts.foldlM Draft.step d = .ok { d with items := items ++ d.items, groups := d.groups + groups } ∧
      items.forms = forms d.groups ∧ (∀ f ∈ items.forms, f.isSingle = true) ∧
      ∀ item ∈ items, item.elim 0 Nested.depth ≤ depth

/-- The text is read as tokens that add items, whatever follows it. -/
def Writes (s : List Char) (groups depth : Nat) (forms : Nat → List Form) : Prop :=
  ∃ ts, ts.length ≤ s.length ∧ (∀ outer r, Reads ⟨{}, outer⟩ (s ++ r) ts ⟨{}, outer⟩ r) ∧
    Adds ts groups depth forms

section Pieces

variable {ts us : List Token} {s s' : List Char} {groups groups' depth depth' : Nat}
  {forms forms' : Nat → List Form}

theorem Adds.append (h : Adds ts groups depth forms) (h' : Adds us groups' depth' forms') :
    Adds (ts ++ us) (groups + groups') (max depth depth') fun k =>
      forms k ++ forms' (k + groups) := by
  intro d
  obtain ⟨items, run, same, singles, shallow⟩ := h d
  obtain ⟨items', run', same', singles', shallow'⟩ :=
    h' { d with items := items ++ d.items, groups := d.groups + groups }
  refine ⟨items' ++ items, ?_, ?_, ?_, ?_⟩
  · rw [List.foldlM_append, run, List.append_assoc, ← Nat.add_assoc]
    exact run'
  · rw [Items.forms_append, same, same']
  · rw [Items.forms_append]
    exact List.forall_mem_append.mpr ⟨singles, singles'⟩
  · refine List.forall_mem_append.mpr ⟨fun item late => ?_, fun item early => ?_⟩
    · exact Nat.le_trans (shallow' item late) (Nat.le_max_right _ _)
    · exact Nat.le_trans (shallow item early) (Nat.le_max_left _ _)

theorem Writes.append (h : Writes s groups depth forms) (h' : Writes s' groups' depth' forms') :
    Writes (s ++ s') (groups + groups') (max depth depth') fun k =>
      forms k ++ forms' (k + groups) := by
  obtain ⟨ts, short, reads, adds⟩ := h
  obtain ⟨us, short', reads', adds'⟩ := h'
  refine ⟨ts ++ us, ?_, fun outer r => ?_, adds.append adds'⟩
  · rw [List.length_append, List.length_append]
    exact Nat.add_le_add short short'
  · rw [List.append_assoc]
    exact (reads outer _).trans (reads' outer r)

/-! ### Quoted texts -/

theorem readEscape_of_isMeta {c : Char} (h : isMeta c = true) (s : List Char) :
    readEscape {} (c :: s) = .ok (.literal c, s) := by
  simp only [isMeta, List.contains_eq_mem, List.mem_cons, List.not_mem_nil, or_false,
    decide_eq_true_eq] at h
  rcases h with rfl | rfl | rfl | rfl | rfl | rfl | rfl | rfl | rfl | rfl | rfl | rfl | rfl | rfl |
    rfl | rfl | rfl | rfl
  all_goals rfl

theorem readToken_of_not_isMeta {c : Char} (h : isMeta c = false) (s : List Char) :
    readToken {} c s = .ok (.atom (.literal c), s) := by
  rw [readToken]
  · rfl
  all_goals
    rintro rfl
    exact absurd h (by decide)

def literals (w : List Char) : List Token :=
  w.map fun c => .atom (.literal c)

theorem reads_quote (w : List Char) (outer : List Flags) (r : List Char) :
    Reads ⟨{}, outer⟩ (quoteChars w ++ r) (literals w) ⟨{}, outer⟩ r := by
  induction w with
  | nil => exact .stop
  | cons c w ih =>
    rw [quoteChars, List.flatMap_cons]
    by_cases special : isMeta c = true
    · rw [if_pos special]
      refine .token (c := '\\') (r := c :: (quoteChars w ++ r)) rfl ?_ ih
      change (readEscape {} (c :: (quoteChars w ++ r))).map _ = _
      rw [readEscape_of_isMeta special]
      rfl
    · rw [if_neg special]
      exact .token rfl (readToken_of_not_isMeta (by simpa using special) _) ih

theorem length_le_length_quoteChars (w : List Char) : w.length ≤ (quoteChars w).length := by
  induction w with
  | nil => exact Nat.le_refl _
  | cons c w ih =>
    rw [quoteChars, List.flatMap_cons, List.length_append, List.length_cons]
    have one : 1 ≤ (if isMeta c = true then ['\\', c] else [c]).length := by split <;> simp
    change w.length + 1 ≤ _ + (quoteChars w).length
    omega

/-- The items of a text, the latest first. -/
def wordItems (w : List Char) : Items :=
  w.reverse.map fun c => some ⟨.text [c], 0⟩

theorem forms_wordItems (w : List Char) : (wordItems w).forms = Form.ofChars w := by
  simp [Items.forms, wordItems, Form.ofChars, List.map_reverse, List.filterMap_map]

theorem depth_wordItems {w : List Char} {item : Option Nested} (h : item ∈ wordItems w) :
    item.elim 0 Nested.depth = 0 := by
  obtain ⟨c, -, rfl⟩ := List.mem_map.mp h
  rfl

theorem foldlM_literals (w : List Char) (d : Draft) :
    (literals w).foldlM Draft.step d = .ok { d with items := wordItems w ++ d.items } := by
  induction w generalizing d with
  | nil => rfl
  | cons c w ih =>
    change (literals w).foldlM Draft.step (d.add (.text [c])) = _
    rw [ih, Draft.add]
    simp only [wordItems, List.reverse_cons, List.map_append, List.map_cons, List.map_nil,
      List.append_assoc, List.singleton_append]

/-- A quoted text is read as the characters that it stands for. -/
theorem writes_quote (w : List Char) : Writes (quoteChars w) 0 0 fun _ => Form.ofChars w := by
  refine ⟨literals w, ?_, reads_quote w, fun d => ⟨wordItems w, foldlM_literals w d,
    forms_wordItems w, ?_, ?_⟩⟩
  · rw [literals, List.length_map]
    exact length_le_length_quoteChars w
  · rw [forms_wordItems]
    exact Form.isSingle_of_mem_ofChars
  · intro item mem
    exact Nat.le_of_eq (depth_wordItems mem)

theorem head?_quoteChars_append (w : List Char) {r : List Char} (h : r.head? ≠ some '?') :
    (quoteChars w ++ r).head? ≠ some '?' := by
  cases w with
  | nil => exact h
  | cons c w =>
    rw [quoteChars, List.flatMap_cons]
    by_cases special : isMeta c = true
    · rw [if_pos special]
      exact fun same => absurd (Option.some.inj same) (by decide)
    · rw [if_neg special]
      intro same
      obtain rfl : c = '?' := Option.some.inj same
      exact special (by decide)

/-! ### Groups -/

/-- A text with nothing but a letter or a sign behind its parenthesis opens a group that
remembers. -/
theorem readToken_open (plain : s.head? ≠ some '?') (r : List Char) :
    readToken {} '(' (s ++ ')' :: r) = .ok (.capture none, s ++ ')' :: r) := by
  refine readGroup_of_ne ?_
  change (s ++ ')' :: r).head? ≠ some '?'
  cases s with
  | nil => exact fun same => absurd (Option.some.inj same) (by decide)
  | cons c s => exact plain

/-- What is drafted of a text without alternatives. -/
theorem body_of_items {items : Items} (singles : ∀ f ∈ items.forms, f.isSingle = true)
    (shallow : ∀ item ∈ items, item.elim 0 Nested.depth ≤ depth) {d : Draft}
    (alone : d.branches = [])
    (added : d.items = items) : d.body.form = .join items.forms ∧ d.body.depth ≤ depth + 1 := by
  subst added
  have body : d.body = ⟨.choose (0 + (Items.toNested d.items).form.parts.length)
      [(Items.toNested d.items).form], levelOver [(Items.toNested d.items).depth]⟩ := by
    rw [Draft.body, alone]
    rfl
  rw [body]
  refine ⟨Form.choose_singleton (Form.branches_join singles) _, ?_⟩
  refine Nat.le_trans (Nat.le_of_eq (Nat.zero_max _)) (levelOver_le fun n mem => ?_)
  obtain ⟨item, among, rfl⟩ := List.mem_map.mp mem
  exact shallow item among

/-- A piece in parentheses. -/
theorem Writes.captured (h : Writes s groups depth forms) (plain : s.head? ≠ some '?') :
    Writes ('(' :: (s ++ [')'])) (groups + 1) (depth + 2)
      fun k => [.group (k + 1) (.join (forms (k + 1)))] := by
  obtain ⟨ts, short, reads, adds⟩ := h
  refine ⟨.capture none :: (ts ++ [.leave]), ?_, fun outer r => ?_, fun d => ?_⟩
  · simpa using short
  · rw [List.cons_append, List.append_assoc]
    exact .token rfl (readToken_open plain r) ((reads ({} :: outer) _).trans (.token rfl rfl .stop))
  · obtain ⟨items, run, same, singles, shallow⟩ :=
      adds { d.enter (some (d.groups + 1)) with groups := d.groups + 1 }
    let inner : Draft := { d.enter (some (d.groups + 1)) with
      items := items ++ []
      groups := d.groups + 1 + groups }
    obtain ⟨form, level⟩ := body_of_items (d := inner) singles shallow rfl (List.append_nil items)
    refine ⟨[some ⟨.group (d.groups + 1) inner.body.form, inner.body.depth + 1⟩], ?_, ?_, ?_, ?_⟩
    · rw [List.foldlM_cons]
      change (ts ++ [Token.leave]).foldlM Draft.step _ = _
      rw [List.foldlM_append, run, Nat.add_comm groups 1, ← Nat.add_assoc]
      rfl
    · rw [form, same]
      rfl
    · exact List.forall_mem_singleton.mpr rfl
    · exact List.forall_mem_singleton.mpr (Nat.succ_le_succ level)

/-- A text in parentheses, in which it stands for what it does alone. -/
theorem writes_group (h : Closes s) (finished : endsInComment s = false)
    (unnamed : groupNames s = []) (plain : s.head? ≠ some '?') :
    Writes ('(' :: (s ++ [')'])) (1 + (draftOf s).groups) (levels s + 1)
      fun k => [.group (k + 1) ((draftOf s).body.form.renumber (k + 1))] := by
  refine ⟨.capture none :: (tokensOf s ++ [.leave]), ?_, fun outer r => ?_, fun d => ?_⟩
  · simpa using h.length_tokensOf_le
  · rw [List.cons_append, List.append_assoc]
    exact .token rfl (readToken_open plain r) (h.reads_enclosed finished {} outer r)
  · have captured : (Token.capture none :: (tokensOf s ++ [.leave])).foldlM Draft.step d =
        .ok (d.capture (draftOf s)) :=
      Draft.foldlM_captured h.drafted h.closed (List.map_eq_nil_iff.mp unnamed)
    refine ⟨[some ⟨_, levels s + 1⟩], ?_, rfl, List.forall_mem_singleton.mpr rfl,
      List.forall_mem_singleton.mpr (Nat.le_refl _)⟩
    rw [captured, Draft.capture, Nat.add_assoc]
    rfl

/-- A text without groups: the form that it is drafted to, and how deep that is nested. -/
structure Fixed (s : List Char) (f : Form) (depth : Nat) : Prop where
  read : (draft s).toOption.map (fun d => (d.outer, d.names, d.groups, d.body)) =
    some ([], [], 0, ⟨f, depth⟩)
  flat : ∀ k, f.renumber k = f
  finished : endsInComment s = false
  plain : s.head? ≠ some '?'

/-- A fixed text in parentheses. -/
theorem Fixed.writes {f : Form} (h : Fixed s f depth) :
    Writes ('(' :: (s ++ [')'])) 1 (depth + 1) fun k => [.group (k + 1) f] := by
  obtain ⟨d, drafted, same⟩ := Option.map_eq_some_iff.mp h.read
  simp only [Prod.mk.injEq] at same
  obtain ⟨closed, unnamed, ungrouped, body⟩ := same
  obtain ⟨read, run, rfl⟩ := draft_eq_ok (eq_ok_of_toOption drafted)
  have names : groupNames s = [] := by
    rw [groupNames, Draft.keys, unnamed]
    rfl
  have writes := writes_group ⟨read, run, closed⟩ h.finished names h.plain
  rw [ungrouped, levels, body] at writes
  simpa only [h.flat] using writes

/-! ### Calls -/

def callTokens : List Token :=
  [.atom (.set .blank), .quantity 0 none true, .atom (.literal '(')]

/-- Blanks and an opening parenthesis. -/
def callForms : List Form :=
  [.rep 0 none true (.set .blank), .text ['(']]

theorem patterns_callForms : callForms.flatMap Form.patterns = blanks :: chars ['('] := by
  decide +kernel

theorem totalBytes_callForms : Form.totalBytes callForms = 8872 := by
  decide +kernel

theorem writes_call : Writes r"\s*\(".toList 0 1 fun _ => callForms := by
  have blank : Form.ofSet .blank = .set .blank := by decide +kernel
  refine ⟨callTokens, by decide, fun outer r => ?_, fun d => ?_⟩
  · refine .token (c := '\\') (r := ['s', '*', '\\', '('] ++ r) rfl rfl ?_
    refine .token (c := '*') (r := ['\\', '('] ++ r) rfl rfl ?_
    exact .token (c := '\\') (r := '(' :: r) rfl rfl .stop
  · refine ⟨[some ⟨.text ['('], 0⟩, some ⟨.rep 0 none true (.set .blank),
      1⟩], ?_, rfl, by decide, by decide⟩
    have read : Draft.step d (.atom (.set .blank)) = .ok (d.add (.set .blank)) := by
      rw [← blank]
      rfl
    rw [callTokens, List.foldlM_cons, read]
    rfl

/-! ### Sources made of pieces -/

/-- What is drafted of a source that is made of pieces. -/
theorem Writes.drafted (h : Writes s groups depth forms) :
    Closes s ∧ (draftOf s).names = [] ∧ (draftOf s).body.form = .join (forms 0) ∧
      (∀ f ∈ forms 0, f.isSingle = true) ∧ levels s ≤ depth + 1 := by
  obtain ⟨ts, short, reads, adds⟩ := h
  obtain ⟨items, run, same, singles, shallow⟩ := adds {}
  have read : tokens s = .ok ts := by
    have all := reads [] []
    rw [List.append_nil] at all
    exact tokens_eq_ok all rfl short
  have drafted : draft s = .ok { items := items ++ [], groups := 0 + groups } := by
    rw [draft, read]
    exact run
  obtain ⟨read, run, whole⟩ := draft_eq_ok drafted
  obtain ⟨form, level⟩ := body_of_items (d := draftOf s) singles shallow (by rw [whole])
    (by rw [whole, List.append_nil])
  exact ⟨⟨read, whole ▸ run, by rw [whole]⟩, by rw [whole], same ▸ form, same ▸ singles, level⟩

/-- A source that is made of pieces is read without a fault, unless it is too large. -/
theorem Writes.ofSource (h : Writes s groups depth forms) (shallow : depth < Draft.maxDepth) :
    ofSource s = if (Form.join (forms 0)).fits then .ok (seqAll ((forms 0).flatMap Form.patterns),
      []) else .error .tooLarge := by
  obtain ⟨closes, unnamed, form, singles, level⟩ := h.drafted
  have deep : (draftOf s).body.depth ≤ Draft.maxDepth := Nat.le_trans level shallow
  rw [ofSource_eq_bind, closes.draft, ← Form.patterns_join singles, ← form]
  change ((draftOf s).finish >>= _) = _
  split
  · next fits =>
    rw [Draft.finish_eq_ok.mpr ⟨closes.closed, deep, fits, rfl⟩, ← unnamed]
    rfl
  · next large =>
    rw [Draft.finish_eq_tooLarge closes.closed deep large]
    rfl

end Pieces

end Pattern

theorem Pattern.isMatch_congr {p q : Pattern} (h : p.Takes = q.Takes) (s : List Char) :
    p.isMatch s = q.isMatch s := by
  rw [Bool.eq_iff_iff, isMatch_iff_takes, isMatch_iff_takes, h]

namespace Matcher

open Pattern

/-- The text of the matcher is a pattern, and one that matches where the matcher does. Only its size
may be refused. -/
def IsSpelled (m : Matcher) : Prop :=
  ∃ f : Form, (∀ s, f.toPattern.isMatch s = m.pattern.isMatch s) ∧
    Pattern.ofSource m.source.toList = if f.fits then .ok (f.toPattern,
      m.names) else .error .tooLarge

variable {m : Matcher} {groups depth : Nat} {forms : Nat → List Form}
  (h : Writes m.source.toList groups depth forms) (shallow : depth < Draft.maxDepth)
  (unnamed : m.names = [])

include h shallow unnamed

theorem isSpelled_of_writes
    (takes : (seqAll ((forms 0).flatMap Form.patterns)).Takes = m.pattern.Takes) :
    m.IsSpelled := by
  obtain ⟨-, -, -, singles, -⟩ := h.drafted
  have pattern : (Form.join (forms 0)).toPattern = seqAll ((forms 0).flatMap Form.patterns) := by
    rw [Form.toPattern, Form.patterns_join singles]
  refine ⟨.join (forms 0), fun s => ?_, ?_⟩
  · rw [pattern, isMatch_congr takes]
  · rw [h.ofSource shallow, pattern, unnamed]

theorem ofSource_of_writes (pattern : seqAll ((forms 0).flatMap Form.patterns) = m.pattern)
    (small : 240 + Form.totalBytes (forms 0) ≤ Form.maxBytes) :
    Matcher.ofSource m.source = .ok m := by
  obtain ⟨-, -, -, singles, -⟩ := h.drafted
  rw [Matcher.ofSource, h.ofSource shallow, if_pos (Form.fits_join singles small),
    pattern, ← unnamed]
  rfl

end Matcher

end Polyglot

import Polyglot.Proofs.Arguments

/-!
Sentinels in defaults. A default is read as sentinels and other characters (`tokens`), and the
replacements that respell it one after another put the spelling of the target for every sentinel,
wherever it stands (`toList_respell`): words that do not overlap cannot be in each other's way. So a
default stays as it is exactly if no sentinel that the target respells occurs in it, be it quoted or
not.
-/

namespace Polyglot

/-- Literals that stand for a value which the targets may spell in another way. -/
inductive Sentinel where
  | absent
  | falsehood
  | truth
  | emptyObject
  deriving DecidableEq, Repr

namespace Sentinel

open Text Render

def all : List Sentinel :=
  [absent, falsehood, truth, emptyObject]

def source : Sentinel → List Char
  | absent => "undefined".toList
  | falsehood => "false".toList
  | truth => "true".toList
  | emptyObject => "\x7b\x7d".toList

def pythonSpelling : Sentinel → List Char
  | absent => "None".toList
  | falsehood => "False".toList
  | truth => "True".toList
  | emptyObject => "\x7b\x7d".toList

def phpSpelling : Sentinel → List Char
  | absent => "null".toList
  | falsehood => "false".toList
  | truth => "true".toList
  | emptyObject => "array ()".toList

def spelling (target : Target) : Sentinel → List Char :=
  if target.isPython then pythonSpelling else phpSpelling

inductive Token where
  | char (c : Char)
  | sentinel (s : Sentinel)
  deriving DecidableEq, Repr

/-- The first `skip` characters belong to the sentinel before. -/
def tokensFrom : (skip : Nat) → List Char → List Token
  | _, [] => []
  | skip + 1, _ :: rest => tokensFrom skip rest
  | 0, c :: rest =>
    match all.find? fun s => s.source.isPrefixOf (c :: rest) with
    | some s => .sentinel s :: tokensFrom (s.source.length - 1) rest
    | none => .char c :: tokensFrom 0 rest

/-- The sentinels of a text, and the characters outside of them. -/
def tokens (s : List Char) : List Token :=
  tokensFrom 0 s

/-- The text of tokens, with the given texts for the sentinels. -/
def render (spell : Sentinel → List Char) : List Token → List Char
  | [] => []
  | .char c :: ts => c :: render spell ts
  | .sentinel s :: ts => spell s ++ render spell ts

/-- A text with all its sentinels in the spelling of a target. -/
def spellOut (target : Target) (s : List Char) : List Char :=
  render (spelling target) (tokens s)

/-! ### Words that do not overlap -/

/-- One of the texts begins with the other. -/
def Agree (v w : List Char) : Prop :=
  v <+: w ∨ w <+: v

instance (v w : List Char) : Decidable (Agree v w) :=
  inferInstanceAs (Decidable (_ ∨ _))

/-- The word `w` does not begin inside of `v`, at its start included. -/
def Avoids (w v : List Char) : Prop :=
  ∀ k < v.length, ¬ Agree (v.drop k) w

/-- The word `v` does not begin inside of `w`, its start excluded. -/
def Precedes (w v : List Char) : Prop :=
  ∀ k < w.length, 0 < k → ¬ Agree (w.drop k) v

instance (w v : List Char) : Decidable (Avoids w v) :=
  inferInstanceAs (Decidable (∀ k < v.length, _))

instance (w v : List Char) : Decidable (Precedes w v) :=
  inferInstanceAs (Decidable (∀ k < w.length, _))

section Words

variable {u v w r : List Char}

theorem Agree.of_prefix_append (h : w <+: v ++ r) : Agree v w :=
  List.prefix_or_prefix_of_prefix (List.prefix_append v r) h

theorem Avoids.not_prefix (h : Avoids w v) {x y : List Char} (split : v = x ++ y) (full : y ≠ [])
    (r : List Char) : ¬ w <+: y ++ r := by
  intro begins
  have short : x.length < v.length := by
    rw [split, List.length_append]
    have := List.length_pos_of_ne_nil full
    omega
  refine h x.length short ?_
  rw [split, List.drop_left]
  exact .of_prefix_append begins

/-- A word that begins before another one ends before it. -/
theorem Precedes.prefix_of_append (h : Precedes w v) (full : u ≠ [])
    (begins : w <+: u ++ (v ++ r)) : w <+: u := by
  rcases List.prefix_or_prefix_of_prefix begins (List.prefix_append _ _) with inside | ⟨y, rfl⟩
  · exact inside
  · rcases List.eq_nil_or_concat y with rfl | ⟨_, _, rfl⟩
    · exact ⟨[], by simp⟩
    · have apart := h u.length (by simp) (List.length_pos_of_ne_nil full)
      rw [List.drop_left] at apart
      exact absurd (Agree.of_prefix_append ((List.prefix_append_right_inj u).mp begins)).symm apart

/-- A text in which no occurrence begins is copied. -/
theorem replaceFrom_copy {old new : List Char} (h : Avoids old v) (s : List Char) :
    replaceFrom old new 0 (v ++ s) = v ++ replaceFrom old new 0 s := by
  suffices ∀ x y, v = x ++ y → replaceFrom old new 0 (y ++ s) =
    y ++ replaceFrom old new 0 s from this [] v rfl
  intro x y split
  induction y generalizing x with
  | nil => rfl
  | cons c y ih =>
    have never : ¬ old.isPrefixOf (c :: (y ++ s)) := by
      rw [List.isPrefixOf_iff_prefix]
      exact h.not_prefix split (List.cons_ne_nil _ _) s
    rw [List.cons_append, replaceFrom, if_neg never,
      ih (x ++ [c]) (by rw [split, List.append_assoc]; rfl),
      List.cons_append]

theorem replaceFrom_skip {old new : List Char} (w s : List Char) :
    replaceFrom old new w.length (w ++ s) = replaceFrom old new 0 s := by
  induction w with
  | nil => rfl
  | cons c w ih =>
    rw [List.cons_append, List.length_cons, replaceFrom]
    exact ih

theorem replaceFrom_hit {old new : List Char} (full : old ≠ []) (s : List Char) :
    replaceFrom old new 0 (old ++ s) = new ++ replaceFrom old new 0 s := by
  obtain ⟨c, w, rfl⟩ := List.exists_cons_of_ne_nil full
  rw [List.cons_append, replaceFrom, if_pos (by simp), List.length_cons, Nat.add_sub_cancel,
    replaceFrom_skip]

end Words

/-! ### What is read -/

/-- At no other character a sentinel begins. -/
def IsRead : List Token → Prop
  | [] => True
  | .char c :: ts => (∀ s : Sentinel, ¬ s.source <+: c :: render source ts) ∧ IsRead ts
  | .sentinel _ :: ts => IsRead ts

theorem mem_all (s : Sentinel) : s ∈ all := by
  cases s <;> decide

theorem source_ne_nil (s : Sentinel) : s.source ≠ [] := by
  cases s <;> decide

theorem render_tokensFrom (skip : Nat) (s : List Char) :
    render source (tokensFrom skip s) = s.drop skip := by
  fun_induction tokensFrom skip s with
  | case1 => simp [render]
  | case2 skip c rest ih => simpa using ih
  | case3 c rest s found ih =>
    have begins := List.find?_some found
    obtain ⟨t, whole⟩ := List.isPrefixOf_iff_prefix.mp begins
    obtain ⟨d, w, hs⟩ := List.exists_cons_of_ne_nil s.source_ne_nil
    rw [hs, List.cons_append] at whole
    obtain ⟨rfl, rfl⟩ := List.cons.inj whole
    rw [render, ih, hs, List.length_cons, Nat.add_sub_cancel, List.drop_left]
    rfl
  | case4 c rest none ih => simp [render, ih]

theorem isRead_tokensFrom (skip : Nat) (s : List Char) : IsRead (tokensFrom skip s) := by
  fun_induction tokensFrom skip s with
  | case1 => trivial
  | case2 skip c rest ih => exact ih
  | case3 c rest s found ih => exact ih
  | case4 c rest none ih =>
    refine ⟨fun s begins => ?_, ih⟩
    rw [render_tokensFrom, List.drop_zero] at begins
    exact List.find?_eq_none.mp none s s.mem_all (List.isPrefixOf_iff_prefix.mpr begins)

/-- Where a sentinel occurs, it is read. -/
theorem mem_of_infix {ts : List Token} (read : IsRead ts) {s : Sentinel}
    (h : s.source <:+: render source ts) : .sentinel s ∈ ts := by
  -- Two sentinels share a place only if they are the same and begin together.
  have apart (s s' : Sentinel) :
      ∀ k < s'.source.length, Agree (s'.source.drop k) s.source → k = 0 ∧ s = s' := by
    cases s <;> cases s' <;> decide
  induction ts with
  | nil => exact absurd (List.infix_nil.mp h) s.source_ne_nil
  | cons t ts ih =>
    cases t with
    | char c =>
      rcases List.infix_cons_iff.mp h with here | later
      · exact absurd here (read.1 s)
      · exact List.mem_cons_of_mem _ (ih read.2 later)
    | sentinel s' =>
      obtain ⟨x, y, split⟩ := h
      rw [render, List.append_assoc] at split
      rcases List.append_eq_append_iff.mp split with ⟨a, first, rest⟩ | ⟨a, -, rest⟩
      · rcases List.eq_nil_or_concat a with rfl | ⟨_, _, rfl⟩
        · exact List.mem_cons_of_mem _ (ih read ⟨[], y, rest⟩)
        · have agree := Agree.of_prefix_append (rest ▸ List.prefix_append s.source y)
          have start := apart s s' x.length (by simp [first])
          rw [first, List.drop_left] at start
          rw [(start agree).2]
          exact List.mem_cons_self
      · exact List.mem_cons_of_mem _ (ih read ⟨a, y, by rw [List.append_assoc, ← rest]⟩)

section Replace

variable {spell : Sentinel → List Char} {old : Sentinel}

/-- A word that begins at a character is there whatever the spelling of the sentinels behind it. -/
theorem prefix_source {ts : List Token} (before : ∀ s, Precedes old.source (spell s))
    {u : List Char} (full : u ≠ []) (h : old.source <+: u ++ render spell ts) :
    old.source <+: u ++ render source ts := by
  induction ts generalizing u with
  | nil => exact h
  | cons t ts ih =>
    cases t with
    | char c =>
      rw [render, List.append_cons] at h ⊢
      exact ih (by simp) h
    | sentinel s => exact ((before s).prefix_of_append full h).trans (List.prefix_append _ _)

/-- Replacing one sentinel changes its spelling and no other. -/
theorem replace_render {ts : List Token} (read : IsRead ts) (unspelled : spell old = old.source)
    (before : ∀ s, Precedes old.source (spell s))
    (avoids : ∀ s, s ≠ old → Avoids old.source (spell s))
    (new : List Char) :
    replace old.source new (render spell ts) = render (Function.update spell old new) ts := by
  rw [replace]
  induction ts with
  | nil => rfl
  | cons t ts ih =>
    cases t with
    | char c =>
      have never : ¬ old.source.isPrefixOf (c :: render spell ts) := by
        rw [List.isPrefixOf_iff_prefix]
        exact fun begins => read.1 old (prefix_source before (List.cons_ne_nil c []) begins)
      rw [render, replaceFrom, if_neg never, ih read.2, render]
    | sentinel s =>
      rw [render, render]
      by_cases same : s = old
      · subst same
        rw [unspelled, replaceFrom_hit s.source_ne_nil, ih read, Function.update_self]
      · rw [replaceFrom_copy (avoids s same), ih read, Function.update_of_ne same]

end Replace

/-! ### Tables of sentinels -/

/-- The rows that respell the given sentinels. -/
def rows (target : Target) (ss : List Sentinel) : List (List Char × List Char) :=
  ss.map fun s => (s.source, s.spelling target)

/-- The spelling of the target for the sentinels that were replaced, and that of the source for the
others. -/
def partly (target : Target) (done : List Sentinel) (s : Sentinel) : List Char :=
  if s ∈ done then s.spelling target else s.source

theorem precedes_partly (target : Target) (done : List Sentinel) (old s : Sentinel) :
    Precedes old.source (partly target done s) := by
  have apart : Precedes old.source (s.spelling target) ∧ Precedes old.source s.source := by
    cases target <;> cases old <;> cases s <;> decide
  rw [partly]
  split
  · exact apart.1
  · exact apart.2

theorem avoids_partly (target : Target) (done : List Sentinel) {old s : Sentinel}
    (other : s ≠ old) : Avoids old.source (partly target done s) := by
  have apart : s ≠ old → Avoids old.source (s.spelling target) ∧ Avoids old.source s.source := by
    cases target <;> cases old <;> cases s <;> decide
  rw [partly]
  split
  · exact (apart other).1
  · exact (apart other).2

theorem update_partly (target : Target) (done : List Sentinel) (old : Sentinel) :
    Function.update (partly target done) old (old.spelling target) =
      partly target (done ++ [old]) := by
  funext s
  by_cases same : s = old
  · subst same
    rw [Function.update_self, partly, if_pos (by simp)]
  · rw [Function.update_of_ne same]
    simp [partly, same]

/-- Replacements of different sentinels, one after another. -/
theorem foldl_replace (target : Target) {ts : List Token} (read : IsRead ts)
    {ss done : List Sentinel} (single : (done ++ ss).Nodup) :
    (rows target ss).foldl (fun s row => replace row.1 row.2 s) (render (partly target done) ts) =
      render (partly target (done ++ ss)) ts := by
  induction ss generalizing done with
  | nil =>
    rw [List.append_nil]
    rfl
  | cons old ss ih =>
    have fresh : old ∉ done := by
      intro earlier
      exact (List.nodup_append.mp single).2.2 old earlier old List.mem_cons_self rfl
    have step := replace_render read (if_neg fresh) (precedes_partly target done old)
      (fun s other => avoids_partly target done other) (old.spelling target)
    rw [update_partly] at step
    change (rows target ss).foldl _ (replace old.source (old.spelling target)
      (render (partly target done) ts)) = _
    rw [List.append_cons] at single ⊢
    rw [step, ih single]

/-- The sentinels that a target respells. -/
def replaced (target : Target) : List Sentinel :=
  if target.isPython then [absent, falsehood, truth] else [absent, emptyObject]

def literals (target : Target) : List (String × String) :=
  if target.isPython then Python.literals else Php.literals

theorem mem_replaced_iff (target : Target) (s : Sentinel) :
    s ∈ replaced target ↔ s.spelling target ≠ s.source := by
  cases target <;> cases s <;> decide

/-- The replacements of a table are one pass over the tokens. -/
theorem toList_respell (target : Target) (d : String) :
    (respell (literals target) d).toList = spellOut target d.toList := by
  have table : (literals target).map (fun row => (row.1.toList, row.2.toList)) =
      rows target (replaced target) := by
    cases target <;> decide
  have single : ([] ++ replaced target).Nodup := by
    cases target <;> decide
  have first : render (partly target []) (tokens d.toList) = d.toList :=
    render_tokensFrom 0 d.toList
  have last : partly target ([] ++ replaced target) = spelling target := by
    funext s
    rw [partly, List.nil_append]
    split
    · rfl
    · next kept =>
      rw [mem_replaced_iff, not_not] at kept
      exact kept.symm
  have chain := foldl_replace target (isRead_tokensFrom 0 d.toList) single
  rw [last, ← table, List.foldl_map] at chain
  change (literals target).foldl _ (render (partly target []) (tokens d.toList)) = _ at chain
  rw [first] at chain
  rw [respell, String.toList_ofList]
  exact chain

/-! ### What stays -/

theorem render_append (spell : Sentinel → List Char) (ts us : List Token) :
    render spell (ts ++ us) = render spell ts ++ render spell us := by
  induction ts with
  | nil => rfl
  | cons t ts ih => cases t <;> simp [render, ih]

theorem mem_tokens_iff {s : Sentinel} {d : List Char} :
    .sentinel s ∈ tokens d ↔ s.source <:+: d := by
  have whole : render source (tokens d) = d := render_tokensFrom 0 d
  constructor
  · intro mem
    obtain ⟨ts, us, split⟩ := List.append_of_mem mem
    rw [← whole, split, render_append]
    exact ⟨render source ts, render source us, by rw [render, List.append_assoc]⟩
  · intro occurs
    have occurs' : s.source <:+: render source (tokens d) := by rwa [whole]
    exact mem_of_infix (isRead_tokensFrom 0 d) occurs'

/-- Respelling a sentinel changes its first character, so a text with one that is respelled
changes. -/
theorem render_eq_source_iff {target : Target} {ts : List Token} :
    render (spelling target) ts = render source ts ↔ ∀ s ∈ replaced target, .sentinel s ∉ ts := by
  have heads (s : Sentinel) : s ∈ replaced target →
      s.spelling target ≠ [] ∧ (s.spelling target).head? ≠ s.source.head? := by
    cases target <;> cases s <;> decide
  induction ts with
  | nil => simp [render]
  | cons t ts ih =>
    cases t with
    | char c => simp [render, ih]
    | sentinel s =>
      rw [render, render]
      by_cases mem : s ∈ replaced target
      · constructor
        · intro same
          have first := congrArg List.head? same
          rw [List.head?_append_of_ne_nil _ (heads s mem).1,
            List.head?_append_of_ne_nil _ s.source_ne_nil] at first
          exact absurd first (heads s mem).2
        · exact fun none => absurd List.mem_cons_self (none s mem)
      · have kept : s.spelling target = s.source := by
          rw [mem_replaced_iff, not_not] at mem
          exact mem
        rw [kept, List.append_cancel_left_eq]
        refine ih.trans (forall₂_congr fun s' mem' => ?_)
        have other : Token.sentinel s' ≠ .sentinel s := by
          rintro ⟨⟩
          exact mem mem'
        simp [other]

theorem spellOut_eq_self_iff (target : Target) (d : List Char) :
    spellOut target d = d ↔ ¬ ∃ s : Sentinel, s.spelling target ≠ s.source ∧ s.source <:+: d := by
  have whole : render source (tokens d) = d := render_tokensFrom 0 d
  have same : render (spelling target) (tokens d) = d ↔ _ := whole ▸ render_eq_source_iff
  rw [spellOut, same]
  simp only [mem_replaced_iff, mem_tokens_iff, not_exists, not_and]

/-- A sentinel in quotes is one between them. -/
theorem infix_quoted_iff (s : Sentinel) (w : List Char) :
    s.source <:+: '\'' :: (w ++ ['\'']) ↔ s.source <:+: w := by
  have plain : '\'' ∉ s.source := by
    cases s <;> decide
  constructor
  · intro h
    rcases List.infix_cons_iff.mp h with start | later
    · rcases List.prefix_cons_iff.mp start with none | ⟨t, first, -⟩
      · exact absurd none s.source_ne_nil
      · exact absurd (first ▸ List.mem_cons_self) plain
    · rcases List.infix_concat_iff.mp later with last | inside
      · rcases List.suffix_concat_iff.mp last with none | ⟨t, first, -⟩
        · exact absurd none s.source_ne_nil
        · exact absurd (first ▸ List.mem_concat_self) plain
      · exact inside
  · exact fun h => (h.trans (List.infix_append' [] w ['\''])).trans (List.suffix_cons _ _).isInfix

theorem spellOut_source (target : Target) (s : Sentinel) :
    spellOut target s.source = s.spelling target := by
  cases target <;> cases s <;> decide

/-! ### Defaults in signatures -/

/-- The text of one piece among joined ones can be exchanged. -/
theorem exists_intercalate (sep : List Char) (xs ys : List (List Char)) :
    ∃ front back, ∀ x, sep.intercalate (xs ++ x :: ys) = front ++ (x ++ back) := by
  induction xs with
  | nil =>
    cases ys with
    | nil => exact ⟨[], [], fun x => by simp⟩
    | cons y ys => exact ⟨[], sep ++ sep.intercalate (y :: ys), fun x => by simp⟩
  | cons z xs ih =>
    obtain ⟨front, back, rest⟩ := ih
    refine ⟨z ++ (sep ++ front), back, fun x => ?_⟩
    have further : ∃ k ks, xs ++ x :: ys = k :: ks := List.exists_cons_of_ne_nil (by simp)
    obtain ⟨k, ks, split⟩ := further
    rw [List.cons_append, split, List.intercalate_cons_cons, ← split, rest]
    simp

/-- How a target writes its parameters. -/
def style (target : Target) : ArgumentStyle :=
  if target.isPython then Python.style else Php.style

/-- What stands around the parameters does not depend on them. -/
theorem exists_frame (target : Target) (m : Method) :
    ∃ opening others closing, ∀ ps : List Parameter,
      (Renderer.signature target { m with parameters := ps }).toList =
      opening ++ (", ".toList.intercalate
        (others ++ (ps.map (Render.respelled (literals target))).map
          (style target).write) ++ closing) := by
  by_cases python : target.isPython = true
  · refine ⟨(if m.isAsync && target.isAsync then "async ".toList else []) ++
      ("def " ++ Name.underscored m.name ++ "(").toList, ["self".toList], "):".toList, fun ps => ?_⟩
    rw [Renderer.signature, if_pos python, Python.toList_signature, literals, if_pos python,
      style, if_pos python, List.append_assoc]
  · refine ⟨("public function " ++ Name.underscored m.name ++ " (").toList,
      [], ") \x7b".toList, fun ps => ?_⟩
    rw [Renderer.signature, if_neg python, Php.toList_signature, literals, if_neg python,
      style, if_neg python]

/-- A signature around a default of one of its parameters. -/
theorem exists_signature (target : Target) (m : Method) (before after : List Parameter)
    (name : String) : ∃ front back : List Char, ∀ d : String,
      (Renderer.signature target { m with parameters := before ++
        ⟨name, some d⟩ :: after }).toList =
          front ++ (name.toList ++
            ((style target).equals ++ (spellOut target d.toList ++ back))) := by
  have write (d : String) :
      (style target).write (Render.respelled (literals target) ⟨name, some d⟩) =
      (style target).sigil ++
        (name.toList ++ ((style target).equals ++ spellOut target d.toList)) := by
    rw [← toList_respell]
    rfl
  obtain ⟨opening, others, closing, frame⟩ := exists_frame target m
  obtain ⟨left, right, joined⟩ := exists_intercalate ", ".toList
    (others ++ (before.map (Render.respelled (literals target))).map (style target).write)
    ((after.map (Render.respelled (literals target))).map (style target).write)
  refine ⟨opening ++ (left ++ (style target).sigil), right ++ closing, fun d => ?_⟩
  rw [frame, List.map_append, List.map_append, List.map_cons, List.map_cons,
    ← List.append_assoc others, joined, write]
  simp only [List.append_assoc]

/-- The default of a parameter is printed with every sentinel in it in the spelling of the target. A
sentinel by itself is printed so, and a default is printed as it is exactly if no sentinel that the
target spells in another way occurs in it, in quotes or not. -/
theorem signature_spells_out (target : Target) (m : Method) (before after : List Parameter)
    (name : String) : ∃ front back : List Char,
      (∀ d : String,
        (Renderer.signature target { m with parameters := before ++
          ⟨name, some d⟩ :: after }).toList =
            front ++ (name.toList ++
              ((style target).equals ++ (spellOut target d.toList ++ back)))) ∧
      (∀ s : Sentinel, spellOut target s.source = s.spelling target) ∧
      (∀ d : List Char, spellOut target d = d ↔
        ¬ ∃ s : Sentinel, s.spelling target ≠ s.source ∧ s.source <:+: d) ∧
      ∀ w : List Char, spellOut target ('\'' :: (w ++ ['\''])) = '\'' :: (w ++ ['\'']) ↔
        ¬ ∃ s : Sentinel, s.spelling target ≠ s.source ∧ s.source <:+: w := by
  obtain ⟨front, back, printed⟩ := exists_signature target m before after name
  refine ⟨front, back, printed, spellOut_source target, spellOut_eq_self_iff target, fun w => ?_⟩
  rw [spellOut_eq_self_iff]
  simp only [infix_quoted_iff]

/-- The text of a quoted default is respelled as if it were a sentinel. -/
theorem signature_respells_quoted :
    Renderer.signature .python3 ⟨"sign", false, [⟨"mode", some "'true'"⟩], "", []⟩ =
      "def sign(self, mode='True'):" ∧ Renderer.signature .php ⟨"sign", false,
        [⟨"mode", some "'undefined'"⟩], "", []⟩ = "public function sign ($mode = 'null') \x7b" := by
  decide +kernel

end Sentinel

end Polyglot

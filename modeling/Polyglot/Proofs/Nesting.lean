import Polyglot.Proofs.Hits
import Polyglot.Proofs.Lines
import Polyglot.Proofs.Replacement
import Polyglot.Ruleset.Basic

/-!
Nested literals, and rules that convert one level of them at a time. A rule takes an opener together
with the first closer behind it. Where literals are nested, the two do not belong together: the
opener is that of the outermost literal and the closer that of an innermost one. What is left is
nested again, with each remaining opener closed by the closer of the literal around it. `Nest.pass`
says so on trees, with `Nest.opened` for what stands behind an opener that has been taken.

One pass lowers the depth of a tree by one (`Nest.depth_pass`), whatever stands beside what. So as
many passes as there are levels convert everything, and with fewer of them a literal is left that
the rule still matches (`Fence.Converts.foldl_eq_swapped`, `Fence.Converts.isMatch_foldl`).
-/

namespace Polyglot

open Text

/-- How literals are delimited, and by what the delimiters are replaced. -/
structure Fence where
  opener : Char
  closer : Char
  before : List Char
  after : List Char
  /-- The characters that a literal may begin and end with. -/
  edge : Char → Bool
  /-- The characters of which a literal has at least one. -/
  core : Char → Bool
  /-- The characters that may stand in a literal. -/
  inner : Char → Bool
  differ : opener ≠ closer
  isClean : (before ++ after).all (fun c => c != opener && c != closer && inner c) = true
  inner_opener : inner opener = true
  core_opener : core opener = true
  core_after : ∃ c ∈ after, core c = true
  edge_closer : edge closer = true → ∀ c, edge c = true

/-- What may stand between an opener and a closer. -/
structure Fence.Fits (f : Fence) (w : List Char) : Prop where
  first : w.head?.any f.edge = true
  last : w.getLast?.any f.edge = true
  core : ∃ c ∈ w, f.core c = true

instance (f : Fence) (w : List Char) : Decidable (f.Fits w) :=
  decidable_of_iff (w.head?.any f.edge = true ∧ w.getLast?.any f.edge = true ∧ w.any f.core = true)
    ⟨fun h => ⟨h.1, h.2.1, List.any_eq_true.mp h.2.2⟩,
      fun h => ⟨h.first, h.last, List.any_eq_true.mpr h.core⟩⟩

namespace Fence

variable (f : Fence)

theorem clean (c : Char) (hc : c ∈ f.before ++ f.after) :
    c ≠ f.opener ∧ c ≠ f.closer ∧ f.inner c = true := by
  have checked := List.all_eq_true.mp f.isClean c hc
  simpa [and_assoc] using checked

/-- A text that may stand before a closer, as far as its last character goes. -/
def Ends (w : List Char) : Prop :=
  ∀ c, w.getLast? = some c → f.edge c = true

theorem Ends.of_append {f : Fence} {v w : List Char} (h : f.Ends (v ++ w)) : f.Ends w := by
  intro c hc
  refine h c ?_
  rw [List.getLast?_append, hc, Option.some_or]

theorem Ends.append {f : Fence} {w : List Char} (h : f.Ends w) (full : w ≠ []) (v : List Char) :
    f.Ends (v ++ w) := by
  intro c hc
  rw [List.getLast?_append, List.getLast?_eq_some_getLast full, Option.some_or,
    ← List.getLast?_eq_some_getLast full] at hc
  exact h c hc

/-- Where a literal may end with a closer it may end with anything. -/
theorem Ends.of_closer {f : Fence} {v : List Char} (h : f.Ends (v ++ [f.closer])) (w : List Char) :
    f.Ends w :=
  fun c _ => f.edge_closer (h f.closer List.getLast?_concat) c

theorem Fits.ends {f : Fence} {w : List Char} (h : f.Fits w) : f.Ends w := by
  intro c hc
  simpa [hc] using h.last

theorem Fits.ne_nil {f : Fence} {w : List Char} (h : f.Fits w) : w ≠ [] := by
  rintro rfl
  cases h.first

theorem Ends.last {f : Fence} {w : List Char} (h : f.Ends w) (full : w ≠ []) :
    w.getLast?.any f.edge = true := by
  rw [List.getLast?_eq_some_getLast full]
  exact h _ (List.getLast?_eq_some_getLast full)

/-- The replacement of a delimiter. -/
def swap (c : Char) : List Char :=
  if c = f.opener then f.before else if c = f.closer then f.after else [c]

/-- The text with all delimiters replaced. -/
def swapped (s : List Char) : List Char :=
  s.flatMap f.swap

theorem swapped_of_clean {w : List Char} (h : ∀ c ∈ w, c ≠ f.opener ∧ c ≠ f.closer) :
    f.swapped w = w := by
  induction w with
  | nil => rfl
  | cons c w ih =>
    obtain ⟨noOpener, noCloser⟩ := h c List.mem_cons_self
    have rest := ih fun d hd => h d (List.mem_cons_of_mem c hd)
    rw [swapped, List.flatMap_cons, swap, if_neg noOpener, if_neg noCloser]
    exact congrArg (c :: ·) rest

theorem swapped_before : f.swapped f.before = f.before :=
  f.swapped_of_clean fun c hc =>
    have clean := f.clean c (List.mem_append_left _ hc)
    ⟨clean.1, clean.2.1⟩

theorem swapped_after : f.swapped f.after = f.after :=
  f.swapped_of_clean fun c hc =>
    have clean := f.clean c (List.mem_append_right _ hc)
    ⟨clean.1, clean.2.1⟩

@[simp] theorem swapped_append (v w : List Char) :
    f.swapped (v ++ w) = f.swapped v ++ f.swapped w :=
  List.flatMap_append

theorem swapped_cons (c : Char) (w : List Char) : f.swapped (c :: w) = f.swap c ++ f.swapped w :=
  List.flatMap_cons

@[simp] theorem swap_opener : f.swap f.opener = f.before :=
  if_pos rfl

@[simp] theorem swap_closer : f.swap f.closer = f.after := by
  rw [swap, if_neg f.differ.symm, if_pos rfl]

end Fence

theorem Fence.opener_not_mem_swapped (f : Fence) (s : List Char) : f.opener ∉ f.swapped s := by
  intro mem
  obtain ⟨c, -, mem⟩ := List.mem_flatMap.mp mem
  rw [swap] at mem
  split at mem
  · exact (f.clean _ (List.mem_append_left _ mem)).1 rfl
  · next other =>
    split at mem
    · exact (f.clean _ (List.mem_append_right _ mem)).1 rfl
    · exact other (List.mem_singleton.mp mem).symm

/-- Characters and literals one after another. -/
inductive Nest where
  | nil
  | plain (c : Char) (rest : Nest)
  | literal (content rest : Nest)
  deriving DecidableEq, Repr

namespace Nest

/-- How many literals lie within each other. -/
def depth : Nest → Nat
  | nil => 0
  | plain _ t => t.depth
  | literal s t => max (s.depth + 1) t.depth

def append : Nest → Nest → Nest
  | nil, u => u
  | plain c t, u => plain c (t.append u)
  | literal s t, u => literal s (t.append u)

def ofChars (w : List Char) : Nest :=
  w.foldr plain nil

variable (f : Fence)

def text : Nest → List Char
  | nil => []
  | plain c t => c :: t.text
  | literal s t => f.opener :: (s.text ++ f.closer :: t.text)

/-- Delimiters delimit literals only, and each literal has a content that fits. -/
def WellFormed : Nest → Prop
  | nil => True
  | plain c t => (c ≠ f.opener ∧ c ≠ f.closer ∧ f.inner c = true) ∧ t.WellFormed
  | literal s t => f.Fits (s.text f) ∧ s.WellFormed ∧ t.WellFormed

instance decidableWellFormed : DecidablePred (WellFormed f)
  | nil => .isTrue trivial
  | plain _ t =>
    have := decidableWellFormed t
    inferInstanceAs (Decidable (_ ∧ _))
  | literal s t =>
    have := decidableWellFormed s
    have := decidableWellFormed t
    inferInstanceAs (Decidable (_ ∧ _))

mutual

/-- One pass of the rule. -/
def pass : Nest → Nest
  | nil => nil
  | plain c t => plain c t.pass
  | literal s t => (ofChars f.before).append (s.opened.append t.pass)

/-- One pass behind an opener that has been taken. The first closer is taken with it; the opener of
a literal that comes before it is left, and the closer around that literal closes it. -/
def opened : Nest → Nest
  | nil => ofChars f.after
  | plain c t => plain c t.opened
  | literal s t => literal (s.opened.append t.pass) nil

end

/-! ### Trees one after another -/

@[simp] theorem text_append (t u : Nest) : (t.append u).text f = t.text f ++ u.text f := by
  induction t with
  | nil => rfl
  | plain c t ih => simp [append, text, ih]
  | literal s t _ ih => simp [append, text, ih]

@[simp] theorem text_ofChars (w : List Char) : (ofChars w).text f = w := by
  induction w with
  | nil => rfl
  | cons c w ih => exact congrArg (c :: ·) ih

@[simp] theorem depth_append (t u : Nest) : (t.append u).depth = max t.depth u.depth := by
  induction t with
  | nil => simp [append, depth]
  | plain c t ih => simpa [append, depth] using ih
  | literal s t _ ih => simp [append, depth, ih, Nat.max_assoc]

@[simp] theorem depth_ofChars (w : List Char) : (ofChars w).depth = 0 := by
  induction w with
  | nil => rfl
  | cons c w ih => exact ih

variable {f}

theorem WellFormed.append {t u : Nest} (ht : t.WellFormed f) (hu : u.WellFormed f) :
    (t.append u).WellFormed f := by
  induction t with
  | nil => exact hu
  | plain c t ih => exact ⟨ht.1, ih ht.2⟩
  | literal s t _ ih => exact ⟨ht.1, ht.2.1, ih ht.2.2⟩

theorem wellFormed_ofChars {w : List Char}
    (h : ∀ c ∈ w, c ≠ f.opener ∧ c ≠ f.closer ∧ f.inner c = true) :
    (ofChars w).WellFormed f := by
  induction w with
  | nil => trivial
  | cons c w ih => exact ⟨h c List.mem_cons_self, ih fun d hd => h d (List.mem_cons_of_mem c hd)⟩

/-! ### One pass takes one level away -/

variable (f)

theorem depth_pass_opened (t : Nest) :
    (t.pass f).depth = t.depth - 1 ∧ (t.opened f).depth = t.depth := by
  induction t with
  | nil => simp [pass, opened, depth]
  | plain c t ih => simpa [pass, opened, depth] using ih
  | literal s t ihs iht =>
    simp only [pass, opened, depth, depth_append, depth_ofChars, ihs, iht]
    omega

theorem depth_pass (t : Nest) : (t.pass f).depth = t.depth - 1 :=
  (depth_pass_opened f t).1

/-! ### What all passes together make of a text -/

/-- A pass changes nothing about what is to become of the text. Behind an opener that has been taken
one closer is gone. -/
theorem swapped_pass_opened (t : Nest) : f.swapped ((t.pass f).text f) = f.swapped (t.text f) ∧
    f.swapped ((t.opened f).text f) = f.swapped (t.text f) ++ f.after := by
  induction t with
  | nil => exact ⟨rfl, by simpa [opened, text, Fence.swapped] using f.swapped_after⟩
  | plain c t ih =>
    simp only [pass, opened, text, Fence.swapped_cons, ih, List.append_assoc, and_self]
  | literal s t ihs iht =>
    constructor
    · simp only [pass, text, text_append, text_ofChars, Fence.swapped_append, Fence.swapped_cons,
        Fence.swapped_before, Fence.swap_opener, Fence.swap_closer, ihs, iht, List.append_assoc]
    · simp only [opened, text, text_append, Fence.swapped_append, Fence.swapped_cons,
        Fence.swap_opener, Fence.swap_closer, ihs, iht, List.append_assoc]
      simp [Fence.swapped]

theorem swapped_text_of_depth {t : Nest} (ok : t.WellFormed f) (flat : t.depth = 0) :
    f.swapped (t.text f) = t.text f := by
  induction t with
  | nil => rfl
  | plain c t ih =>
    obtain ⟨⟨noOpener, noCloser, -⟩, ok⟩ := ok
    rw [text, Fence.swapped_cons, ih ok flat, Fence.swap, if_neg noOpener, if_neg noCloser,
      List.singleton_append]
  | literal s t =>
    simp only [depth] at flat
    omega

/-! ### A pass keeps texts well formed -/

theorem head?_text_opened {t : Nest} (full : t.text f ≠ []) :
    ((t.opened f).text f).head? = (t.text f).head? := by
  cases t with
  | nil => exact absurd rfl full
  | plain c t => rfl
  | literal s t => rfl

theorem exists_core_opened (t : Nest) : ∃ c ∈ (t.opened f).text f, f.core c = true := by
  induction t with
  | nil => simpa [opened] using f.core_after
  | plain c t ih =>
    obtain ⟨d, hd, core⟩ := ih
    exact ⟨d, List.mem_cons_of_mem c hd, core⟩
  | literal s t => exact ⟨f.opener, List.mem_cons_self, f.core_opener⟩

theorem text_pass_ne_nil {t : Nest} (full : t ≠ nil) : (t.pass f).text f ≠ [] := by
  cases t with
  | nil => exact absurd rfl full
  | plain c t => exact List.cons_ne_nil _ _
  | literal s t =>
    obtain ⟨c, hc, -⟩ := exists_core_opened f s
    refine List.ne_nil_of_mem (a := c) ?_
    simp only [pass, text_append, List.mem_append]
    exact .inr (.inl hc)

variable {f}

/-- What stands behind a literal after a pass may stand before a closer, if it could before. -/
theorem ends_behind {s t : Nest} (h : f.Ends ((literal s t).text f))
    (kept : f.Ends (t.text f) → f.Ends ((t.pass f).text f)) (v : List Char) :
    f.Ends (v ++ (t.pass f).text f) := by
  by_cases last : t = nil
  · subst last
    exact Fence.Ends.of_closer (v := f.opener :: s.text f) h _
  · have rest : f.Ends (t.text f) :=
      Fence.Ends.of_append (v := f.opener :: (s.text f ++ [f.closer])) (by simpa [text] using h)
    exact (kept rest).append (text_pass_ne_nil f last) v

theorem ends_pass {t : Nest} (h : f.Ends (t.text f)) : f.Ends ((t.pass f).text f) := by
  induction t with
  | nil => exact h
  | plain c t ih =>
    by_cases last : t = nil
    · subst last
      exact h
    · have rest : f.Ends (t.text f) := Fence.Ends.of_append (v := [c]) h
      exact (ih rest).append (text_pass_ne_nil f last) [c]
  | literal s t _ ih =>
    rw [pass, text_append, text_append, ← List.append_assoc]
    exact ends_behind h ih _

/-- What a pass leaves between the opener of an inner literal and the closer around that literal. -/
theorem fits_opened_append {s t : Nest} (content : f.Fits (s.text f))
    (h : f.Ends ((literal s t).text f)) : f.Fits (((s.opened f).append (t.pass f)).text f) := by
  obtain ⟨c, hc, core⟩ := exists_core_opened f s
  have full : (s.opened f).text f ≠ [] := List.ne_nil_of_mem hc
  rw [text_append]
  refine ⟨?_, ?_, c, List.mem_append_left _ hc, core⟩
  · rw [List.head?_append, head?_text_opened f content.ne_nil,
      List.head?_eq_some_head content.ne_nil, Option.some_or,
      ← List.head?_eq_some_head content.ne_nil]
    exact content.first
  · exact (ends_behind h ends_pass _).last (List.append_ne_nil_of_left_ne_nil full _)

theorem wellFormed_pass_opened {t : Nest} (ok : t.WellFormed f) :
    (t.pass f).WellFormed f ∧ (f.Ends (t.text f) → (t.opened f).WellFormed f) := by
  induction t with
  | nil => exact ⟨trivial, fun _ => wellFormed_ofChars fun c hc =>
    f.clean c (List.mem_append_right _ hc)⟩
  | plain c t ih =>
    obtain ⟨hc, ok⟩ := ok
    exact ⟨⟨hc, (ih ok).1⟩, fun h => ⟨hc, (ih ok).2 (Fence.Ends.of_append (v := [c]) h)⟩⟩
  | literal s t ihs iht =>
    obtain ⟨content, oks, okt⟩ := ok
    have opened := (ihs oks).2 content.ends
    have kept := opened.append (iht okt).1
    constructor
    · have before := wellFormed_ofChars fun c hc => f.clean c (List.mem_append_left _ hc)
      exact before.append kept
    · intro h
      exact ⟨fits_opened_append content h, kept, trivial⟩

theorem WellFormed.pass {t : Nest} (ok : t.WellFormed f) : (t.pass f).WellFormed f :=
  (wellFormed_pass_opened ok).1

end Nest

/-! ### Rules that convert literals -/

namespace Fence

/-- A part of a text that the rule can take together with an opener before it. -/
structure Taken (f : Fence) (w : List Char) : Prop where
  noCloser : f.closer ∉ w
  inner : ∀ c ∈ w, f.inner c = true

/-- What a rule makes of an opener: together with the first closer behind it, if what stands between
them fits. -/
structure Converts (f : Fence) (r : Rule) : Prop where
  tame : r.matcher.pattern.isTame = true
  blind : r.matcher.pattern.looks = false
  solid : r.matcher.pattern.nullable = false
  miss : ∀ c s, c ≠ f.opener → r.matcher.pattern.matchAt none (c :: s) = none
  hit : ∀ w s, f.Taken w → f.Fits w →
    ∃ m, r.matcher.pattern.matchAt none (f.opener :: (w ++ f.closer :: s)) = some m ∧
      m.text = f.opener :: (w ++ [f.closer]) ∧
      Template.expand r.matcher.names (Template.parts r.template.toList) m =
        f.before ++ (w ++ f.after)

/-- The first part of a content up to the first closer: all of the content, or a part with an opener
in it that ends where an inner literal ends. -/
def Cuts (f : Fence) (w s : List Char) : Prop :=
  w = s ∨ (w.head? = s.head? ∧ f.opener ∈ w ∧ w.getLast?.any f.edge = true)

theorem Cuts.fits {f : Fence} {w s : List Char} (h : f.Cuts w s) (content : f.Fits s) :
    f.Fits w := by
  rcases h with rfl | ⟨first, inside, last⟩
  · exact content
  · exact ⟨first ▸ content.first, last, f.opener, inside, f.core_opener⟩

theorem Cuts.cons {f : Fence} {w s : List Char} (h : f.Cuts w s) (c : Char) :
    f.Cuts (c :: w) (c :: s) := by
  rcases h with rfl | ⟨-, inside, last⟩
  · exact .inl rfl
  · refine .inr ⟨rfl, List.mem_cons_of_mem c inside, ?_⟩
    have full : w ≠ [] := List.ne_nil_of_mem inside
    rw [List.getLast?_cons, List.getLast?_eq_some_getLast full]
    rwa [List.getLast?_eq_some_getLast full] at last

variable {f : Fence} {r : Rule}

namespace Converts

theorem apply_cons (h : f.Converts r) {c : Char} (other : c ≠ f.opener) (s : List Char) :
    r.apply (c :: s) = c :: r.apply s :=
  Pattern.replaceAll_cons h.tame h.blind (h.miss c s other)

theorem apply_opener (h : f.Converts r) {w : List Char} (taken : f.Taken w) (content : f.Fits w)
    (s : List Char) :
    r.apply (f.opener :: (w ++ f.closer :: s)) = f.before ++ (w ++ (f.after ++ r.apply s)) := by
  obtain ⟨m, found, covered, put⟩ := h.hit w s taken content
  have split : f.opener :: (w ++ f.closer :: s) = m.text ++ s := by simp [covered]
  rw [split] at found ⊢
  have replaced :=
    Pattern.replaceAll_hit (f := Template.expand r.matcher.names (Template.parts r.template.toList))
    h.tame h.blind h.solid found
  rw [put, List.append_assoc, List.append_assoc] at replaced
  exact replaced

/-- One application of the rule is one pass. Behind an opener that has been taken, the text up to
the first closer is copied. -/
theorem apply_text_append (h : f.Converts r) {t : Nest} (ok : t.WellFormed f) (s : List Char) :
    r.apply (t.text f ++ s) = (t.pass f).text f ++ r.apply s ∧
    ∃ w v, t.text f ++ f.closer :: s = w ++ f.closer :: v ∧ f.Taken w ∧ f.Cuts w (t.text f) ∧
      w ++ (f.after ++ r.apply v) = (t.opened f).text f ++ r.apply s := by
  induction t generalizing s with
  | nil =>
    refine ⟨rfl, [], s, rfl, ⟨List.not_mem_nil, fun c hc => by cases hc⟩, .inl rfl, ?_⟩
    rw [Nest.opened, Nest.text_ofChars, List.nil_append]
  | plain c t ih =>
    obtain ⟨⟨noOpener, noCloser, inner⟩, ok⟩ := ok
    obtain ⟨passed, w, v, cut, taken, cuts, rest⟩ := ih ok s
    refine ⟨?_, c :: w, v, congrArg (c :: ·) cut, ⟨?_, ?_⟩, cuts.cons c, congrArg (c :: ·) rest⟩
    · exact (h.apply_cons noOpener _).trans (congrArg (c :: ·) passed)
    · exact List.not_mem_cons_of_ne_of_not_mem noCloser.symm taken.noCloser
    · exact List.forall_mem_cons.mpr ⟨inner, taken.inner⟩
  | literal s' t ihs iht =>
    obtain ⟨content, oks, okt⟩ := ok
    constructor
    · obtain ⟨-, w, v, cut, taken, cuts, rest⟩ := ihs oks (t.text f ++ s)
      have split : (Nest.literal s' t).text f ++ s = f.opener :: (w ++ f.closer :: v) := by
        rw [← cut]
        simp [Nest.text]
      rw [split, h.apply_opener taken (cuts.fits content), rest, (iht okt s).1]
      simp [Nest.pass]
    · -- The closer that the opener takes is the first one in the inner literal.
      obtain ⟨-, w, v, cut, taken, cuts, rest⟩ := ihs oks (t.text f ++ f.closer :: s)
      refine ⟨f.opener :: w, v, ?_, ⟨?_, ?_⟩, .inr ⟨rfl, List.mem_cons_self, ?_⟩, ?_⟩
      · rw [List.cons_append, ← cut]
        simp [Nest.text]
      · exact List.not_mem_cons_of_ne_of_not_mem f.differ.symm taken.noCloser
      · exact List.forall_mem_cons.mpr ⟨f.inner_opener, taken.inner⟩
      · have fits := cuts.fits content
        exact (fits.ends.append fits.ne_nil [f.opener]).last (List.cons_ne_nil _ _)
      · rw [List.cons_append, rest, (iht okt _).1, h.apply_cons f.differ.symm]
        simp [Nest.opened, Nest.text]

theorem apply_text (h : f.Converts r) {t : Nest} (ok : t.WellFormed f) :
    r.apply (t.text f) = (t.pass f).text f := by
  have empty : r.apply [] = [] := Pattern.replaceAll_nil h.solid
  have passed := (h.apply_text_append ok []).1
  rwa [empty, List.append_nil, List.append_nil] at passed

/-- The rule matches as long as there is a literal. -/
theorem isMatch_text (h : f.Converts r) {t : Nest} (ok : t.WellFormed f) (deep : 0 < t.depth) :
    r.isMatch (t.text f) = true := by
  refine Pattern.isMatch_iff.mpr ?_
  induction t with
  | nil => cases deep
  | plain c t ih =>
    obtain ⟨u, v, split, found⟩ := ih ok.2 deep
    refine ⟨c :: u, v, congrArg (c :: ·) split, ?_⟩
    rwa [Pattern.matchAt_eq_of_not_looks h.tame h.blind _ u.getLast?]
  | literal s t =>
    obtain ⟨-, w, v, cut, taken, cuts, -⟩ := h.apply_text_append ok.2.1 (t.text f)
    obtain ⟨m, found, -⟩ := h.hit w v taken (cuts.fits ok.1)
    refine ⟨[], (Nest.literal s t).text f, rfl, ?_⟩
    have split : (Nest.literal s t).text f = f.opener :: (w ++ f.closer :: v) :=
      congrArg (f.opener :: ·) cut
    rw [split]
    exact Option.isSome_of_eq_some found

/-! ### Several passes -/

/-- As many applications of the rule as passes. -/
theorem foldl_text (h : f.Converts r) {t : Nest} (ok : t.WellFormed f) (n : Nat) :
    ∃ u : Nest, u.WellFormed f ∧ u.depth = t.depth - n ∧ f.swapped (u.text f) =
      f.swapped (t.text f) ∧
        (List.replicate n r).foldl (fun s rule => rule.apply s) (t.text f) = u.text f := by
  induction n generalizing t with
  | zero => exact ⟨t, ok, rfl, rfl, rfl⟩
  | succ n ih =>
    obtain ⟨u, oku, depth, same, result⟩ := ih ok.pass
    refine ⟨u, oku, ?_, same.trans (Nest.swapped_pass_opened f t).1, ?_⟩
    · rw [depth, Nest.depth_pass, Nat.sub_sub, Nat.add_comm 1 n]
    · rw [List.replicate_succ, List.foldl_cons, h.apply_text ok, result]

/-- Enough passes replace all delimiters. -/
theorem foldl_eq_swapped (h : f.Converts r) {t : Nest} (ok : t.WellFormed f) {n : Nat}
    (enough : t.depth ≤ n) :
    (List.replicate n r).foldl (fun s rule => rule.apply s) (t.text f) = f.swapped (t.text f) := by
  obtain ⟨u, oku, depth, same, result⟩ := h.foldl_text ok n
  rw [result, ← same, Nest.swapped_text_of_depth f oku (depth.trans (Nat.sub_eq_zero_of_le enough))]

/-- Too few passes leave a match. -/
theorem isMatch_foldl (h : f.Converts r) {t : Nest} (ok : t.WellFormed f) {n : Nat}
    (few : n < t.depth) :
    r.isMatch ((List.replicate n r).foldl (fun s rule => rule.apply s) (t.text f)) = true := by
  obtain ⟨u, oku, depth, -, result⟩ := h.foldl_text ok n
  rw [result]
  exact h.isMatch_text oku (depth ▸ Nat.sub_pos_of_lt few)

end Converts

end Fence

end Polyglot

import Polyglot.Proofs.Hits

/-!
The first place of a text where something begins. A text has at most one such place, and the place
stays when what begins there is exchanged for something else of the kind, as long as nothing that
begins sooner could reach into it. Of a pattern that matches wherever something begins the first
match is there.
-/

namespace Polyglot

open Pattern

/-- Something begins behind `before`, and nothing sooner. Only places behind a text with `P`
count. -/
structure FirstPlace (B P : List Char → Prop) (before behind : List Char) : Prop where
  here : P before
  begins : B behind
  first : ∀ u v, before = u ++ v → v ≠ [] → P u → ¬ B (v ++ behind)

namespace FirstPlace

variable {B P : List Char → Prop} {before before' behind behind' : List Char}

/-- No place lies before another. -/
theorem length_le (h : FirstPlace B P before behind) (h' : FirstPlace B P before' behind')
    (same : before ++ behind = before' ++ behind') : before'.length ≤ before.length := by
  refine Nat.le_of_not_lt fun short => ?_
  have starts : before <+: before' :=
    List.prefix_of_prefix_length_le ⟨_, same⟩ (List.prefix_append _ _) (Nat.le_of_lt short)
  obtain ⟨v, rfl⟩ := starts
  have full : v ≠ [] := by
    rintro rfl
    simp at short
  rw [List.append_assoc] at same
  refine h'.first before v rfl full h.here ?_
  rw [← List.append_cancel_left same]
  exact h.begins

theorem unique (h : FirstPlace B P before behind) (h' : FirstPlace B P before' behind')
    (same : before ++ behind = before' ++ behind') : before = before' ∧ behind = behind' :=
  List.append_inj same (Nat.le_antisymm (h'.length_le h same.symm) (h.length_le h' same))

/-- Where something begins there is a first place. The induction goes to earlier and earlier
places. -/
theorem exists_of_begins {u v : List Char} (here : P u) (begins : B v) :
    ∃ before behind, u ++ v = before ++ behind ∧ FirstPlace B P before behind := by
  induction hlen : u.length using Nat.strongRecOn generalizing u v with
  | ind n ih =>
    by_cases earlier : ∃ x y, u = x ++ y ∧ y ≠ [] ∧ P x ∧ B (y ++ v)
    · obtain ⟨x, y, rfl, full, there, sooner⟩ := earlier
      have short : x.length < n := by
        have := List.length_pos_iff.mpr full
        rw [List.length_append] at hlen
        omega
      rw [List.append_assoc]
      exact ih x.length short there sooner rfl
    · exact ⟨u, v, rfl, here, begins, fun x y cut full there sooner => earlier ⟨x, y, cut,
        full, there, sooner⟩⟩

/-- What begins at the first place may be exchanged, if what begins before the new one begins before
the old one. -/
theorem exchange (h : FirstPlace B P before behind) (begins : B behind')
    (apart : ∀ v, v ≠ [] → B (v ++ behind') → B (v ++ behind)) : FirstPlace B P before behind' :=
  ⟨h.here, begins, fun u v cut full there sooner => h.first u v cut full there
    (apart v full sooner)⟩

/-- The first place of all is the first among any that it is one of. -/
theorem narrow {Q : List Char → Prop} (h : FirstPlace B P before behind) (every : ∀ u, P u)
    (here : Q before) : FirstPlace B Q before behind :=
  ⟨here, h.begins, fun u v cut full _ => h.first u v cut full (every u)⟩

end FirstPlace

/-! ### Patterns that find them -/

/-- The pattern matches exactly where something begins. -/
def Pattern.Finds (p : Pattern) (B : List Char → Prop) : Prop :=
  ∀ before s, (p.matchAt before s).isSome = true ↔ B s

namespace Pattern.Finds

variable {p : Pattern} {B : List Char → Prop} (h : p.Finds B)
include h

theorem matchAt_eq_none {s : List Char} (none : ¬ B s) (before : Option Char) :
    p.matchAt before s = .none :=
  Option.not_isSome_iff_eq_none.mp fun found => none ((h before s).mp found)

theorem isMatch_iff {s : List Char} : p.isMatch s = true ↔ ∃ u v, s = u ++ v ∧ B v := by
  rw [Pattern.isMatch_iff]
  constructor
  · rintro ⟨u, v, whole, found⟩
    exact ⟨u, v, whole, (h _ v).mp found⟩
  · rintro ⟨u, v, whole, begins⟩
    exact ⟨u, v, whole, (h _ v).mpr begins⟩

/-- What is replaced stands at the first place of all. -/
theorem replaceFirst {before after : List Char} {m : Match}
    (place : FirstPlace B (fun _ => True) before (m.text ++ after)) (full : m.text ≠ [])
    (found : p.matchAt before.getLast? (m.text ++ after) = some m) (w : List Char) :
    p.replaceFirst (fun _ => w) (before ++ (m.text ++ after)) = before ++ (w ++ after) :=
  replaceFirst_hit _ full (fun u v cut hv => h.matchAt_eq_none
    (place.first u v cut hv trivial) _) found

end Pattern.Finds

end Polyglot

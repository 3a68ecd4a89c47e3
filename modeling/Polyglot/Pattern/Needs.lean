import Polyglot.Pattern.Match

/-!
What a match cannot do without. Most patterns ask for some particular text, and most texts lack it;
asking for it first saves the search. So does asking whether a match can begin with the next
character. `isPossible_of_mem_ends` and `mayStart_of_mem_ends` say that nothing is lost by either.
-/

namespace Polyglot

namespace Pattern

/-- The outline of what a pattern matches: sets for single characters, `none` for any text. -/
def outline : Pattern → List (Option CharSet)
  | empty => []
  | char set => [some set]
  | look _ => []
  | seq p q => outline p ++ outline q
  | alt _ _ => [none]
  | star _ _ => [none]
  | plus _ p => outline p ++ [none]
  | group _ p => outline p

/-- Whether a text follows an outline. -/
inductive Fits : List (Option CharSet) → List Char → Prop where
  | done : Fits [] []
  | char {set : CharSet} {c : Char} {outline : List (Option CharSet)} {w : List Char} :
      set.has c = true → Fits outline w → Fits (some set :: outline) (c :: w)
  | gap {outline : List (Option CharSet)} (u : List Char) {w : List Char} :
      Fits outline w → Fits (none :: outline) (u ++ w)

theorem Fits.append {a b : List (Option CharSet)} {u v : List Char} (first : Fits a u)
    (second : Fits b v) : Fits (a ++ b) (u ++ v) := by
  induction first with
  | done => exact second
  | char has _ ih => exact .char has ih
  | gap u _ ih => rw [List.append_assoc]; exact .gap u ih

theorem fits_of_mem_ends {n : Nat} {p : Pattern} {s t : State} (mem : t ∈ p.ends n s) :
    ∃ w, s.rest = w ++ t.rest ∧ Fits p.outline w := by
  induction p generalizing n s t with
  | empty => exact ⟨[], by rw [List.mem_singleton.mp mem]; rfl, .done⟩
  | char set =>
    simp only [ends] at mem
    split at mem
    · cases mem
    · next c rest hrest =>
      split at mem
      · next has =>
        exact ⟨[c], by rw [List.mem_singleton.mp mem, hrest]; rfl, .char has .done⟩
      · cases mem
  | look test =>
    simp only [ends] at mem
    split at mem
    · exact ⟨[], by rw [List.mem_singleton.mp mem]; rfl, .done⟩
    · cases mem
  | seq p q ihp ihq =>
    obtain ⟨u, hu, hut⟩ := List.mem_flatMap.mp mem
    obtain ⟨v, hv, fv⟩ := ihp hu
    obtain ⟨w, hw, fw⟩ := ihq hut
    exact ⟨v ++ w, by rw [hv, hw, List.append_assoc], fv.append fw⟩
  | alt p q ihp ihq =>
    obtain ⟨w, hw, _⟩ := reaches_of_mem_ends mem
    exact ⟨w, hw, by simpa [outline] using Fits.gap w .done⟩
  | star greedy p ih =>
    obtain ⟨w, hw, _⟩ := reaches_of_mem_ends mem
    exact ⟨w, hw, by simpa [outline] using Fits.gap w .done⟩
  | plus greedy p ih =>
    obtain ⟨u, hu, hut⟩ := List.mem_flatMap.mp mem
    obtain ⟨v, hv, fv⟩ := ih hu
    obtain ⟨w, hw, _⟩ := reaches_of_mem_rounds (fun _ _ => reaches_of_mem_ends) hut
    have tail : Fits [none] w := by simpa using Fits.gap w .done
    exact ⟨v ++ w, by rw [hv, hw, List.append_assoc], fv.append tail⟩
  | group index p ih =>
    obtain ⟨u, hu, rfl⟩ := List.mem_map.mp mem
    obtain ⟨w, hw, fits⟩ := ih hu
    exact ⟨w, by rw [State.leave_rest]; exact hw, fits⟩

/-- The runs of single characters between the gaps of an outline. -/
def runs : List (Option CharSet) → List (List CharSet)
  | [] => [[]]
  | none :: outline => [] :: runs outline
  | some set :: outline =>
    match runs outline with
    | run :: others => (set :: run) :: others
    | [] => [[set]]

/-- Whether a text begins with characters of the sets. -/
def beginsWith : List CharSet → List Char → Bool
  | [], _ => true
  | _ :: _, [] => false
  | set :: sets, c :: rest => set.has c && beginsWith sets rest

/-- Whether characters of the sets stand side by side somewhere in a text. -/
def occurs (run : List CharSet) : List Char → Bool
  | [] => run.isEmpty
  | c :: rest => beginsWith run (c :: rest) || occurs run rest

/-- Whether a text has all the runs that a match needs. -/
def isPossible (p : Pattern) (s : List Char) : Bool :=
  (runs p.outline).all fun run => occurs run s

theorem beginsWith_append {run : List CharSet} {s : List Char} (h : beginsWith run s = true)
    (t : List Char) : beginsWith run (s ++ t) = true := by
  induction run generalizing s with
  | nil => rfl
  | cons set run ih =>
    cases s with
    | nil => cases h
    | cons c s =>
      simp only [beginsWith, Bool.and_eq_true] at h
      simp only [List.cons_append, beginsWith, h.1, ih h.2, Bool.and_self]

theorem occurs_of_beginsWith {run : List CharSet} {s : List Char} (h : beginsWith run s = true) :
    occurs run s = true := by
  cases s with
  | nil => cases run <;> simp_all [beginsWith, occurs]
  | cons c s => simp [occurs, h]

theorem occurs_cons {run : List CharSet} {s : List Char} (h : occurs run s = true) (c : Char) :
    occurs run (c :: s) = true := by
  simp [occurs, h]

theorem occurs_append_left {run : List CharSet} {s : List Char} (h : occurs run s = true)
    (u : List Char) : occurs run (u ++ s) = true := by
  induction u with
  | nil => exact h
  | cons c u ih => exact occurs_cons ih c

theorem occurs_append_right {run : List CharSet} {s : List Char} (h : occurs run s = true)
    (t : List Char) : occurs run (s ++ t) = true := by
  induction s with
  | nil =>
    have : run = [] := List.isEmpty_iff.mp h
    subst this
    exact occurs_of_beginsWith rfl
  | cons c s ih =>
    simp only [occurs, Bool.or_eq_true] at h
    rcases h with here | later
    · exact occurs_of_beginsWith (beginsWith_append here t)
    · exact occurs_cons (ih later) c

/-- A text that follows an outline begins with its first run and has all the others. -/
theorem Fits.runs {outline : List (Option CharSet)} {w : List Char} (fits : Fits outline w) :
    ∃ run others, Pattern.runs outline = run :: others ∧ beginsWith run w = true ∧
      ∀ other ∈ others, occurs other w = true := by
  induction fits with
  | done => exact ⟨[], [], rfl, rfl, by simp⟩
  | @char set c outline w has _ ih =>
    obtain ⟨run, others, hruns, begins, contained⟩ := ih
    exact ⟨set :: run, others, by simp [Pattern.runs, hruns], by simp [beginsWith, has, begins],
      fun other mem => occurs_cons (contained other mem) _⟩
  | gap u _ ih =>
    obtain ⟨run, others, hruns, begins, contained⟩ := ih
    refine ⟨[], run :: others, by simp [Pattern.runs, hruns], rfl, fun other mem => ?_⟩
    refine occurs_append_left ?_ u
    rcases List.mem_cons.mp mem with first | later
    · exact first ▸ occurs_of_beginsWith begins
    · exact contained other later

theorem isPossible_of_mem_ends {n : Nat} {p : Pattern} {s t : State} (mem : t ∈ p.ends n s) :
    p.isPossible s.rest = true := by
  obtain ⟨w, hw, fits⟩ := fits_of_mem_ends mem
  obtain ⟨run, others, hruns, begins, contained⟩ := fits.runs
  simp only [isPossible, List.all_eq_true, hruns, hw]
  intro other inside
  refine occurs_append_right ?_ t.rest
  rcases List.mem_cons.mp inside with first | later
  · exact first ▸ occurs_of_beginsWith begins
  · exact contained other later

/-- A text that lacks what a match needs has no match. -/
theorem ends_eq_nil_of_not_isPossible {n : Nat} {p : Pattern} {s : State}
    (h : p.isPossible s.rest = false) : p.ends n s = [] := by
  refine List.eq_nil_iff_forall_not_mem.mpr fun t mem => ?_
  simp [isPossible_of_mem_ends mem] at h

theorem isPossible_of_cons {p : Pattern} {c : Char} {s : List Char} (h : p.isPossible s = true) :
    p.isPossible (c :: s) = true := by
  simp only [isPossible, List.all_eq_true] at h ⊢
  exact fun run mem => occurs_cons (h run mem) c

/-- Whether the pattern may match without consuming anything. -/
def nullable : Pattern → Bool
  | empty => true
  | char _ => false
  | look _ => true
  | seq p q => nullable p && nullable q
  | alt p q => nullable p || nullable q
  | star _ _ => true
  | plus _ p => nullable p
  | group _ p => nullable p

/-- The characters that a match may begin with. -/
def firstChars : Pattern → CharSet
  | empty => .none
  | char set => set
  | look _ => .none
  | seq p q => if nullable p then .union (firstChars p) (firstChars q) else firstChars p
  | alt p q => .union (firstChars p) (firstChars q)
  | star _ p => firstChars p
  | plus _ p => firstChars p
  | group _ p => firstChars p

/-- The characters one of which every match begins with, if there is such a restriction. -/
def starts? (p : Pattern) : Option CharSet :=
  if p.nullable then none else some p.firstChars

/-- Whether a text begins as a restriction asks. -/
def mayStart (starts : Option CharSet) (rest : List Char) : Bool :=
  starts.all fun set => rest.head?.any set.has

theorem firstChars_of_mem_rounds {greedy : Bool} {fork : Nat} {step : State → List State}
    {set : CharSet}
    (h : ∀ s t, t ∈ step s → t.rest = s.rest ∨ s.rest.head?.any set.has = true) {fuel : Nat}
    {s t : State} (mem : t ∈ rounds greedy fork step fuel s) :
    t.rest = s.rest ∨ s.rest.head?.any set.has = true := by
  induction fuel generalizing s with
  | zero => cases mem
  | succ fuel ih =>
    unfold rounds at mem
    split at mem
    · cases mem
    · next u hu =>
      have still : u.rest = s.rest := by rw [(State.pass?_eq_some.mp hu).2]
      have cases : t = u ∨ ∃ v ∈ step u, t ∈ rounds greedy fork step fuel v := by
        cases greedy <;> simp at mem <;> grind
      rw [← still]
      rcases cases with now | ⟨v, hv, hvt⟩
      · exact .inl (now ▸ rfl)
      · rcases h u v hv with stay | begins
        · rw [← stay]
          exact ih hvt
        · exact .inr begins

/-- A match either consumes nothing, or it begins with one of the characters it may begin with. -/
theorem nullable_or_firstChars {n : Nat} {p : Pattern} {s t : State} (mem : t ∈ p.ends n s) :
    (p.nullable = true ∧ t.rest = s.rest) ∨ s.rest.head?.any p.firstChars.has = true := by
  induction p generalizing n s t with
  | empty => exact .inl ⟨rfl, by rw [List.mem_singleton.mp mem]⟩
  | char set =>
    simp only [ends] at mem
    split at mem
    · cases mem
    · next c rest hrest =>
      split at mem
      · next has => exact .inr (by simpa [hrest, firstChars] using has)
      · cases mem
  | look test =>
    simp only [ends] at mem
    split at mem
    · exact .inl ⟨rfl, by rw [List.mem_singleton.mp mem]⟩
    · cases mem
  | seq p q ihp ihq =>
    obtain ⟨u, hu, hut⟩ := List.mem_flatMap.mp mem
    rcases ihp hu with ⟨nullp, still⟩ | begins
    · rcases ihq hut with ⟨nullq, still'⟩ | begins
      · exact .inl ⟨by simp [nullable, nullp, nullq], still'.trans still⟩
      · rw [still] at begins
        exact .inr (by cases h : s.rest.head? <;> simp_all [firstChars])
    · refine .inr ?_
      simp only [firstChars]
      split <;> cases h : s.rest.head? <;> simp_all
  | alt p q ihp ihq =>
    simp only [ends] at mem
    split at mem
    · cases mem
    · next u hu =>
      have same : u.rest = s.rest := by rw [(State.pass?_eq_some.mp hu).2]
      rw [← same]
      rcases List.mem_append.mp mem with first | second
      · rcases ihp first with ⟨nullp, still⟩ | begins
        · exact .inl ⟨by simp [nullable, nullp], still⟩
        · exact .inr (by cases h : u.rest.head? <;> simp_all [firstChars])
      · rcases ihq second with ⟨nullq, still⟩ | begins
        · exact .inl ⟨by simp [nullable, nullq], still⟩
        · exact .inr (by cases h : u.rest.head? <;> simp_all [firstChars])
  | star greedy p ih =>
    rcases firstChars_of_mem_rounds (fun s t h => (ih h).imp_left And.right) mem with stay | begins
    · exact .inl ⟨rfl, stay⟩
    · exact .inr begins
  | plus greedy p ih =>
    obtain ⟨u, hu, hut⟩ := List.mem_flatMap.mp mem
    rcases ih hu with ⟨null, still⟩ | begins
    · rw [← still]
      rcases firstChars_of_mem_rounds (fun s t h => (ih h).imp_left And.right) hut with
        stay | begins
      · exact .inl ⟨null, stay⟩
      · exact .inr begins
    · exact .inr begins
  | group index p ih =>
    obtain ⟨u, hu, rfl⟩ := List.mem_map.mp mem
    rw [State.leave_rest]
    rcases ih hu with stays | begins
    · exact .inl stays
    · exact .inr begins

theorem mayStart_of_mem_ends {n : Nat} {p : Pattern} {s t : State} (mem : t ∈ p.ends n s) :
    mayStart p.starts? s.rest = true := by
  unfold mayStart starts?
  split
  · rfl
  · next notNull =>
    rcases nullable_or_firstChars mem with ⟨null, _⟩ | begins
    · exact absurd null notNull
    · simpa using begins

end Pattern

end Polyglot

import Mathlib.Data.List.Basic
import Polyglot.Hierarchy.Json

/-!
The hierarchy of a JSON value. The values below it are the nodes of a tree, and each of them has an
address: the numbers of the members on the way to it. To list the nodes in preorder is to list them
by their addresses, in lexicographic order (`mem_visits`, `pairwise_visits`), and the classes of a
hierarchy are read off that list (`Hierarchy.flatten_eq_classesOf`).
-/

namespace Polyglot

namespace Json

/-! ### Addresses -/

def isObject : Json → Bool
  | .object _ => true
  | _ => false

/-- The members of an object; another value has none. -/
def members : Json → List (String × Json)
  | .object members => members
  | _ => []

/-- The keys on the way to the value at an address, and the value. -/
def follow : Json → List Nat → Option (List String × Json)
  | v, [] => some ([], v)
  | v, i :: address =>
    v.members[i]?.bind fun m => (m.2.follow address).map fun found => (m.1 :: found.1, found.2)

/-- The value is an object, and so are the values of its members, down to the last. -/
inductive IsNest : Json → Prop where
  | object {members : List (String × Json)} : (∀ m ∈ members, IsNest m.2) → IsNest (.object members)

mutual

/-- The number of keys of the objects in a tree. -/
def keyCount : Json → Nat
  | .object members => keyCountAll members
  | _ => 0

def keyCountAll : List (String × Json) → Nat
  | [] => 0
  | (_, value) :: rest => keyCount value + 1 + keyCountAll rest

end

/-- What holds of a value if it holds of the values of its members holds of all values. -/
theorem member_induction {P : Json → Prop} (other : ∀ v, v.isObject = false → P v)
    (object : ∀ members, (∀ m ∈ members, P m.2) → P (.object members)) (v : Json) : P v := by
  refine Json.rec (motive_1 := P) (motive_2 := fun _ => True)
    (motive_3 := fun ms => ∀ m ∈ ms, P m.2) (motive_4 := fun m => P m.2) (other _ rfl)
    (fun _ => other _ rfl) (fun _ => other _ rfl)
    (fun _ => other _ rfl) (fun _ _ => other _ rfl) (fun ms ih => object ms ih) trivial
    (fun _ _ _ _ => trivial) ?_ ?_ ?_ v
  · exact List.forall_mem_nil _
  · exact fun _ _ first others => List.forall_mem_cons.mpr ⟨first, others⟩
  · exact fun _ _ ih => ih

/-! ### Preorder -/

/-- A value of a tree, with its address and the keys on the way to it. -/
structure Visit where
  address : List Nat
  keys : List String
  value : Json

namespace Visit

/-- The same value, seen from the object that has the tree as its member. -/
def below (i : Nat) (key : String) (x : Visit) : Visit :=
  ⟨i :: x.address, key :: x.keys, x.value⟩

/-- The class that the last key names, under the key before it. -/
def entry? (x : Visit) : Option HierarchyEntry :=
  x.keys.getLast?.map fun name => ⟨name, x.keys.dropLast.getLast?⟩

end Visit

mutual

/-- The values of a tree in preorder. -/
def visits : Json → List Visit
  | .object members => ⟨[], [], .object members⟩ :: visitsFrom 0 members
  | v => [⟨[], [], v⟩]

/-- The values below members that are numbered from `i` on. -/
def visitsFrom (i : Nat) : List (String × Json) → List Visit
  | [] => []
  | (key, value) :: rest => (visits value).map (.below i key) ++ visitsFrom (i + 1) rest

end

theorem visits_of_not_isObject {v : Json} (h : v.isObject = false) : v.visits = [⟨[], [], v⟩] := by
  cases v with
  | object members => cases h
  | _ => rfl

theorem mem_visitsFrom {i : Nat} {ms : List (String × Json)} {x : Visit} :
    x ∈ visitsFrom i ms ↔
      ∃ (j : Nat) (m : String × Json) (y : Visit), ms[j]? = some m ∧ y ∈ m.2.visits ∧ x =
        y.below (i + j) m.1 := by
  induction ms generalizing i with
  | nil => simp [visitsFrom]
  | cons m ms ih =>
    rw [visitsFrom, List.mem_append, List.mem_map, ih]
    constructor
    · rintro (⟨y, hy, rfl⟩ | ⟨j, m', y, here, hy, rfl⟩)
      · exact ⟨0, m, y, rfl, hy, rfl⟩
      · exact ⟨j + 1, m', y, here, hy, by rw [Nat.add_right_comm, Nat.add_assoc]⟩
    · rintro ⟨j, m', y, here, hy, rfl⟩
      cases j with
      | zero =>
        obtain rfl := Option.some.inj here
        exact .inl ⟨y, hy, rfl⟩
      | succ j => exact .inr ⟨j, m', y, here, hy, by rw [Nat.add_right_comm, Nat.add_assoc]⟩

/-- Only the value itself is visited without a key. -/
theorem exists_visits_eq_cons (v : Json) :
    ∃ others, v.visits = ⟨[], [], v⟩ :: others ∧ ∀ x ∈ others, x.keys ≠ [] := by
  cases v with
  | object members =>
    refine ⟨visitsFrom 0 members, rfl, fun x hx => ?_⟩
    obtain ⟨j, m, y, -, -, rfl⟩ := mem_visitsFrom.mp hx
    exact List.cons_ne_nil _ _
  | _ => exact ⟨[], rfl, List.forall_mem_nil _⟩

theorem follow_cons_eq_some {v : Json} {i : Nat} {address : List Nat}
    {keys : List String} {w : Json} : v.follow (i :: address) = some (keys, w) ↔
      ∃ m keys', v.members[i]? = some m ∧ m.2.follow address = some (keys', w) ∧
        keys = m.1 :: keys' := by
  simp only [follow, Option.bind_eq_some_iff, Option.map_eq_some_iff, Prod.exists, Prod.mk.injEq]
  constructor
  · rintro ⟨key, child, here, keys', w', found, rfl, rfl⟩
    exact ⟨key, child, keys', here, found, rfl⟩
  · rintro ⟨key, child, keys', here, found, rfl⟩
    exact ⟨key, child, here, keys', w, found, rfl, rfl⟩

/-- Every value of the tree is visited, and nothing else. -/
theorem mem_visits {v : Json} {x : Visit} :
    x ∈ v.visits ↔ v.follow x.address = some (x.keys, x.value) := by
  obtain ⟨address, keys, w⟩ := x
  induction v using member_induction generalizing address keys with
  | other v other =>
    rw [visits_of_not_isObject other, List.mem_singleton]
    cases address with
    | nil => simp [follow, eq_comm]
    | cons i address =>
      have none : v.members = [] := by
        cases v with
        | object members => cases other
        | _ => rfl
      simp [follow, none]
  | object ms ih =>
    rw [visits, List.mem_cons, mem_visitsFrom]
    cases address with
    | nil => simp [follow, Visit.below, eq_comm]
    | cons i address =>
      rw [follow_cons_eq_some]
      constructor
      · rintro (root | ⟨j, m, y, here, hy, same⟩)
        · cases root
        · simp only [Visit.below, Nat.zero_add, Visit.mk.injEq, List.cons.injEq] at same
          obtain ⟨⟨rfl, rfl⟩, rfl, rfl⟩ := same
          exact ⟨m, y.keys, here, (ih m (List.mem_of_getElem? here) _ _).mp hy, rfl⟩
      · rintro ⟨m, keys', here, found, rfl⟩
        refine .inr ⟨i, m, ⟨address, keys', w⟩, here, ?_, by rw [Nat.zero_add]; rfl⟩
        exact (ih m (List.mem_of_getElem? here) _ _).mpr found

/-- The address of the one comes before that of the other. -/
def Visit.Before (x y : Visit) : Prop :=
  List.Lex (· < ·) x.address y.address

theorem pairwise_visitsFrom {i : Nat} {ms : List (String × Json)}
    (inner : ∀ m ∈ ms, m.2.visits.Pairwise Visit.Before) :
    (visitsFrom i ms).Pairwise Visit.Before := by
  induction ms generalizing i with
  | nil => exact .nil
  | cons m ms ih =>
    obtain ⟨first, others⟩ := List.forall_mem_cons.mp inner
    rw [visitsFrom, List.pairwise_append]
    refine ⟨?_, ih others, ?_⟩
    · exact List.pairwise_map.mpr (first.imp fun before => .cons before)
    · intro x hx y hy
      obtain ⟨x, -, rfl⟩ := List.mem_map.mp hx
      obtain ⟨j, m', y, -, -, rfl⟩ := mem_visitsFrom.mp hy
      exact .rel (by omega)

/-- The visits come by their addresses. -/
theorem pairwise_visits (v : Json) : v.visits.Pairwise Visit.Before := by
  induction v using member_induction with
  | other v other => rw [visits_of_not_isObject other]; exact List.pairwise_singleton _ _
  | object ms ih =>
    rw [visits, List.pairwise_cons]
    refine ⟨fun x hx => ?_, pairwise_visitsFrom ih⟩
    obtain ⟨j, m, y, -, -, rfl⟩ := mem_visitsFrom.mp hx
    exact .nil

/-- A nest is a value with nothing but objects in its tree. -/
theorem isNest_iff {v : Json} : v.IsNest ↔ ∀ x ∈ v.visits, x.value.isObject = true := by
  induction v using member_induction with
  | other v other =>
    rw [visits_of_not_isObject other, List.forall_mem_singleton]
    constructor
    · rintro ⟨-⟩
      cases other
    · intro object
      rw [other] at object
      cases object
  | object ms ih =>
    rw [visits, List.forall_mem_cons]
    constructor
    · rintro ⟨nested⟩
      refine ⟨rfl, fun x hx => ?_⟩
      obtain ⟨j, m, y, here, hy, rfl⟩ := mem_visitsFrom.mp hx
      have mem := List.mem_of_getElem? here
      exact (ih m mem).mp (nested m mem) y hy
    · rintro ⟨-, objects⟩
      refine .object fun m mem => (ih m mem).mpr fun y hy => ?_
      obtain ⟨j, here⟩ := List.getElem?_of_mem mem
      exact objects (y.below (0 + j) m.1) (mem_visitsFrom.mpr ⟨j, m, y, here, hy, rfl⟩)

/-- Below a value every key is the last one of a visit. -/
theorem length_visits (v : Json) : v.visits.length = v.keyCount + 1 := by
  induction v using member_induction with
  | other v other =>
    cases v with
    | object members => cases other
    | _ => rfl
  | object ms ih =>
    have all (i : Nat) : (visitsFrom i ms).length = keyCountAll ms := by
      induction ms generalizing i with
      | nil => rfl
      | cons m ms inner =>
        obtain ⟨first, others⟩ := List.forall_mem_cons.mp ih
        rw [visitsFrom, keyCountAll, List.length_append, List.length_map, first, inner others]
    rw [visits, keyCount, List.length_cons, all]

end Json

namespace Hierarchy

open Json

/-! ### The classes of a value -/

/-- The class that a visit names, where the tree itself stands under a key. -/
def entryUnder (parent : Option String) (x : Visit) : Option HierarchyEntry :=
  x.keys.getLast?.map fun name => ⟨name, x.keys.dropLast.getLast?.or parent⟩

/-- The classes that visits name, or the key of the first value that is no object. -/
def classesOf (parent : Option String) (xs : List Visit) :
    Except (Option String) (List HierarchyEntry) :=
  match xs.find? fun x => !x.value.isObject with
  | some x => .error (x.keys.getLast?.or parent)
  | none => .ok (xs.filterMap (entryUnder parent))

theorem classesOf_append (parent : Option String) (xs ys : List Visit) :
    classesOf parent (xs ++ ys) = do
      let first ← classesOf parent xs
      let others ← classesOf parent ys
      return first ++ others := by
  unfold classesOf
  rw [List.find?_append]
  cases xs.find? fun x => !x.value.isObject with
  | some x => rfl
  | none =>
    rw [Option.none_or]
    cases ys.find? fun x => !x.value.isObject with
    | some y => rfl
    | none => rw [List.filterMap_append]; rfl

theorem classesOf_object (parent : Option String) {x : Visit} (root : x.keys = [])
    (object : x.value.isObject = true) (xs : List Visit) :
    classesOf parent (x :: xs) = classesOf parent xs := by
  have none : entryUnder parent x = none := by rw [entryUnder, root]; rfl
  unfold classesOf
  rw [List.find?_cons_of_neg (by simp [object]), List.filterMap_cons_none none]

/-- A member names a class, and the classes below it stand under its key. -/
theorem classesOf_below (parent : Option String) (i : Nat) (key : String) (v : Json) :
    classesOf parent (v.visits.map (.below i key)) = do
      let children ← classesOf (some key) v.visits
      return ⟨key, parent⟩ :: children := by
  obtain ⟨others, visits, named⟩ := v.exists_visits_eq_cons
  have failing : (v.visits.map (Visit.below i key)).find? (fun x => !x.value.isObject) =
      (v.visits.find? fun x => !x.value.isObject).map (Visit.below i key) := List.find?_map
  unfold classesOf
  rw [failing]
  cases v.visits.find? fun x => !x.value.isObject with
  | some x =>
    have last : (x.below i key).keys.getLast?.or parent = x.keys.getLast?.or (some key) := by
      rw [Visit.below, List.getLast?_cons]
      cases x.keys.getLast? <;> rfl
    exact congrArg Except.error last
  | none =>
    have inner : ∀ x ∈ others, entryUnder parent (x.below i key) = entryUnder (some key) x := by
      intro x hx
      obtain ⟨keys, name, split⟩ := List.eq_nil_or_concat x.keys |>.resolve_left (named x hx)
      rw [List.concat_eq_append] at split
      rw [entryUnder, entryUnder, Visit.below, split, ← List.cons_append, List.getLast?_concat,
        List.getLast?_concat, List.dropLast_concat, List.dropLast_concat, List.getLast?_cons]
      cases keys.getLast? <;> rfl
    have rest : (others.map (Visit.below i key)).filterMap (entryUnder parent) =
        others.filterMap (entryUnder (some key)) := by
      rw [List.filterMap_map]
      exact List.filterMap_congr inner
    have here : entryUnder parent (Visit.below i key ⟨[], [], v⟩) = some ⟨key, parent⟩ := rfl
    refine congrArg Except.ok ?_
    rw [visits, List.map_cons, List.filterMap_cons_some here, rest]
    rfl

/-- The classes are read off the visits. The induction over the members counts them, since their
addresses begin with their numbers. -/
theorem flatten_eq_classesOf (parent : Option String) (v : Json) :
    flatten parent v = classesOf parent v.visits := by
  induction v using member_induction generalizing parent with
  | other v other =>
    cases v with
    | object members => cases other
    | _ => rfl
  | object ms ih =>
    have all (i : Nat) : flattenMembers parent ms = classesOf parent (visitsFrom i ms) := by
      induction ms generalizing i with
      | nil => rfl
      | cons m ms inner =>
        obtain ⟨first, others⟩ := List.forall_mem_cons.mp ih
        rw [visitsFrom, classesOf_append, classesOf_below, ← first (some m.1),
          ← inner others (i + 1), flattenMembers]
        cases flatten (some m.1) m.2 <;> rfl
    rw [visits, classesOf_object parent rfl rfl, ← all 0, flatten]

/-! ### Parents -/

/-- The value that the last key leads from. -/
theorem exists_follow_of_concat {v w : Json} {address : List Nat}
    {keys : List String} {key : String} (found : v.follow address = some (keys ++ [key], w)) :
    ∃ above i u, address = above ++ [i] ∧ v.follow above = some (keys, u) := by
  induction address generalizing v keys with
  | nil => simp [follow] at found
  | cons i address ih =>
    obtain ⟨m, keys', here, below, same⟩ := follow_cons_eq_some.mp found
    cases keys with
    | nil =>
      obtain ⟨-, rfl⟩ := List.cons.inj same
      cases address with
      | nil => exact ⟨[], i, v, rfl, rfl⟩
      | cons j address =>
        obtain ⟨_, _, _, _, wrong⟩ := follow_cons_eq_some.mp below
        cases wrong
    | cons first keys =>
      obtain ⟨rfl, rfl⟩ := List.cons.inj same
      obtain ⟨above, j, u, rfl, parent⟩ := ih below
      exact ⟨i :: above, j, u, rfl, follow_cons_eq_some.mpr ⟨m, keys, here, parent, rfl⟩⟩

theorem lex_concat (address : List Nat) (i : Nat) : List.Lex (· < ·) address (address ++ [i]) := by
  induction address with
  | nil => exact .nil
  | cons j address ih => exact .cons ih

/-- What is visited under two keys has a visit before it that the first of them ends. -/
theorem exists_before {v : Json} {front back : List Visit} {x : Visit}
    {keys : List String} {key : String} (visits : v.visits = front ++ x :: back)
    (named : x.keys = keys ++ [key]) : ∃ y ∈ front, y.keys = keys := by
  have found := mem_visits.mp (visits ▸ List.mem_append_right front List.mem_cons_self)
  rw [named] at found
  obtain ⟨above, i, u, address, parent⟩ := exists_follow_of_concat found
  have before : List.Lex (· < ·) above x.address := address ▸ lex_concat above i
  have mem : (⟨above, keys, u⟩ : Visit) ∈ front ++ x :: back := visits ▸ mem_visits.mpr parent
  rcases List.mem_append.mp mem with early | late
  · exact ⟨_, early, rfl⟩
  · have ordered := visits ▸ v.pairwise_visits
    rcases List.mem_cons.mp late with rfl | behind
    · exact absurd before (List.lex_irrefl Nat.lt_irrefl _)
    · have after := (List.pairwise_cons.mp (List.pairwise_append.mp ordered).2.1).1 _ behind
      exact absurd before (List.lex_asymm Nat.lt_asymm after)

theorem exists_parent_before {v : Json} {front back : List HierarchyEntry} {e : HierarchyEntry}
    {parent : String} (classes : v.visits.filterMap Visit.entry? = front ++ e :: back)
    (under : e.parent = some parent) :
    ∃ f ∈ front, f.name = parent := by
  obtain ⟨xs, ys, visits, rfl, rest⟩ := List.filterMap_eq_append_iff.mp classes
  obtain ⟨zs, x, back, rfl, unnamed, here, -⟩ := List.filterMap_eq_cons_iff.mp rest
  obtain ⟨name, last, rfl⟩ := Option.map_eq_some_iff.mp here
  obtain ⟨keys, split⟩ := List.getLast?_eq_some_iff.mp last
  have under : keys.getLast? = some parent := by rwa [split, List.dropLast_concat] at under
  obtain ⟨y, hy, same⟩ := exists_before (by rw [visits, List.append_assoc]) split
  have entry : y.entry? = some ⟨parent, keys.dropLast.getLast?⟩ := by
    rw [Visit.entry?, same, under]
    rfl
  rcases List.mem_append.mp hy with early | late
  · exact ⟨_, List.mem_filterMap.mpr ⟨y, early, entry⟩, rfl⟩
  · rw [unnamed y late] at entry
    cases entry

/-! ### The hierarchy of a value -/

/-- The values of the tree, each once and in the order of their addresses. -/
structure IsPreorder (v : Json) (xs : List Visit) : Prop where
  complete : ∀ x, x ∈ xs ↔ v.follow x.address = some (x.keys, x.value)
  ordered : xs.Pairwise Visit.Before

theorem isPreorder_visits (v : Json) : IsPreorder v v.visits :=
  ⟨fun _ => mem_visits, v.pairwise_visits⟩

theorem entryUnder_none : entryUnder none = Visit.entry? := by
  funext x
  rw [entryUnder, Visit.entry?, Option.or_none]

theorem length_filterMap_entry? (v : Json) :
    (v.visits.filterMap Visit.entry?).length = v.keyCount := by
  obtain ⟨others, visits, named⟩ := v.exists_visits_eq_cons
  have length := v.length_visits
  rw [visits, List.length_cons] at length
  rw [visits, List.filterMap_cons_none rfl, List.length_filterMap_eq_countP,
    List.countP_eq_length.mpr]
  · omega
  · intro x hx
    simp [Visit.entry?, named x hx]

/-- A hierarchy can be read off a value exactly if there are only objects in its tree. Its classes
are then the keys of the tree in preorder, each under the key that it is nested in, so that parents
come before their children. Otherwise the failure names the key of the first value in preorder that
is no object. -/
theorem ofJson_preorder (v : Json) :
    ((∃ h, ofJson v = .ok h) ↔ v.IsNest) ∧
      (∀ h, ofJson v = .ok h → ∃ xs, IsPreorder v xs ∧ h.classes = xs.filterMap Visit.entry? ∧
        h.classes.length = v.keyCount ∧
        ∀ front e back, h.classes = front ++ e :: back → ∀ parent, e.parent = some parent →
          ∃ f ∈ front, f.name = parent) ∧
      ∀ failure, ofJson v = .error failure → ∃ front x back, IsPreorder v (front ++ x :: back) ∧
        (∀ y ∈ front, y.value.isObject = true) ∧ x.value.isObject = false ∧
        failure = .configuration "error hierarchy entries must be JSON objects"
          (some (x.keys.getLast?.getD "<root>")) := by
  have read : flatten none v = classesOf none v.visits := flatten_eq_classesOf none v
  cases found : v.visits.find? fun x => !x.value.isObject with
  | none =>
    have objects : ∀ x ∈ v.visits, x.value.isObject = true := by simpa using found
    have ok : ofJson v = .ok ⟨v.visits.filterMap Visit.entry?⟩ := by
      rw [ofJson, read, classesOf, found, entryUnder_none]
    refine ⟨⟨fun _ => isNest_iff.mpr objects, fun _ => ⟨_, ok⟩⟩, fun h same => ?_,
      fun failure same => ?_⟩
    · obtain rfl := Except.ok.inj (ok.symm.trans same)
      exact ⟨v.visits, isPreorder_visits v, rfl, length_filterMap_entry? v,
        fun front e back classes parent under => exists_parent_before classes under⟩
    · cases ok.symm.trans same
  | some x =>
    obtain ⟨other, front, back, visits, objects⟩ := List.find?_eq_some_iff_append.mp found
    have other : x.value.isObject = false := by simpa using other
    have error : ofJson v = .error (.configuration "error hierarchy entries must be JSON objects"
        (some (x.keys.getLast?.getD "<root>"))) := by
      rw [ofJson, read, classesOf, found]
      dsimp only
      rw [Option.or_none]
    refine ⟨⟨?_, fun nest => ?_⟩, fun h same => ?_, fun failure same => ?_⟩
    · rintro ⟨h, same⟩
      cases error.symm.trans same
    · have object := isNest_iff.mp nest x (visits ▸ List.mem_append_right front List.mem_cons_self)
      rw [other] at object
      cases object
    · cases error.symm.trans same
    · obtain rfl := Except.error.inj (error.symm.trans same)
      exact ⟨front, x, back, visits ▸ isPreorder_visits v,
        fun y hy => by simpa using objects y hy, other, rfl⟩

end Hierarchy

end Polyglot

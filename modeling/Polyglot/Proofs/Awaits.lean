import Polyglot.Proofs.Books
import Polyglot.Proofs.CodePoints
import Polyglot.Proofs.Replacement
import Polyglot.Render.PythonText

/-!
The keyword `await` in the two generations of Python. `withoutAwaits` drops it wherever it is a word
of the code, together with the blank behind it. The rule for the earlier generation drops it behind
a blank, which the match uses up. Both are scans of the text that decide at every keyword whether it
goes (`Scan`).

Where two scans decide differently, what they leave differs: a keyword that only one of them has
kept is not made up for later, as no other text turns into a keyword when something behind it goes
(`Scan.begins_run`). So the rule does what it should exactly on the texts of `python2Text_eq_iff`.
-/

namespace Polyglot

open Text Pattern

theorem Text.isWord_of_isBlank {c : Char} (h : isBlank c = true) : isWord c = false := by
  let points := blankRanges.flatMap fun r => List.range' r.1 (r.2 + 1 - r.1)
  have checked : ∀ n ∈ points, isWord (Char.ofNat n) = false := by decide +kernel
  obtain ⟨r, mem, low, high⟩ := (Ranges.has_iff_covers_of_sound sound_blankRanges).mp h
  have listed : c.toNat ∈ points :=
    List.mem_flatMap.mpr ⟨r, mem, List.mem_range'_1.mpr ⟨low, by omega⟩⟩
  have here := checked _ listed
  rwa [Char.ofNat_toNat] at here

namespace Await

def keyword : List Char :=
  ['a', 'w', 'a', 'i', 't']

/-- The text begins with the keyword and a blank. -/
def begins (s : List Char) : Bool :=
  s.take 5 == keyword && (s.drop 5).head?.any isBlank

theorem begins_iff {s : List Char} :
    begins s = true ↔ ∃ b r, s = keyword ++ b :: r ∧ isBlank b = true := by
  constructor
  · intro h
    obtain ⟨front, back⟩ := Bool.and_eq_true_iff.mp h
    cases rest : s.drop 5 with
    | nil =>
      rw [rest] at back
      cases back
    | cons b r =>
      rw [rest] at back
      refine ⟨b, r, ?_, back⟩
      rw [← List.take_append_drop 5 s, rest, beq_iff_eq.mp front]
  · rintro ⟨b, r, rfl, blank⟩
    simp [begins, keyword, blank]

/-- Texts are taken apart at the keywords before blanks. -/
theorem keyword_induction {P : List Char → Prop} (nil : P [])
    (found : ∀ b r, isBlank b = true → P r → P (keyword ++ b :: r))
    (other : ∀ c r, begins (c :: r) = false → P r → P (c :: r)) (s : List Char) : P s := by
  induction n : s.length using Nat.strongRecOn generalizing s with
  | ind n ih =>
    subst n
    cases s with
    | nil => exact nil
    | cons c r =>
      cases here : begins (c :: r) with
      | false => exact other c r here (ih r.length (Nat.lt_succ_self _) r rfl)
      | true =>
        obtain ⟨b, t, whole, blank⟩ := begins_iff.mp here
        rw [whole] at ih ⊢
        exact found b t blank (ih t.length (by simp [keyword]; omega) t rfl)

theorem isWord_of_mem_keyword : ∀ c ∈ keyword, isWord c = true :=
  List.all_eq_true.mp (by decide +kernel)

/-- No keyword before a blank begins inside another. -/
theorem eq_nil_or_of_keyword_append {b b' : Char} {r v r' : List Char} (blank : isBlank b = true)
    (same : keyword ++ b :: r = v ++ (keyword ++ b' :: r')) :
    v = [] ∨ ∃ v', v = keyword ++ b :: v' ∧ r = v' ++ (keyword ++ b' :: r') := by
  rcases v with _ | ⟨c₁, _ | ⟨c₂, _ | ⟨c₃, _ | ⟨c₄, _ | ⟨c₅, _ | ⟨c₆, v⟩⟩⟩⟩⟩⟩
  case nil => exact .inl rfl
  case cons.cons.cons.cons.cons.cons =>
    simp only [keyword, List.cons_append, List.nil_append, List.cons.injEq] at same
    obtain ⟨rfl, rfl, rfl, rfl, rfl, rfl, rfl⟩ := same
    exact .inr ⟨v, rfl, rfl⟩
  case cons.cons.cons.cons.cons.nil =>
    simp only [keyword, List.cons_append, List.nil_append, List.cons.injEq] at same
    obtain ⟨-, -, -, -, -, rfl, -⟩ := same
    exact absurd blank (by decide)
  all_goals simp [keyword] at same

/-! ### Scans -/

/-- A way to read a text and to decide which keywords go. -/
structure Scan (σ : Type) where
  /-- The state behind a character that stays. -/
  read : σ → Char → σ
  /-- The state behind a keyword and a blank that go. -/
  skip : σ → σ
  /-- Whether a keyword before a blank goes. -/
  drops : σ → Bool

namespace Scan

variable {σ τ : Type} (x : Scan σ)

/-- What is left of a text, of which some characters may still have to be skipped. -/
def run : σ → Nat → List Char → List Char
  | _, _, [] => []
  | s, n + 1, _ :: r => run s n r
  | s, 0, c :: r =>
    if begins (c :: r) && x.drops s then run (x.skip s) 5 r else c :: run (x.read s c) 0 r

/-- What is left of a keyword and the blank behind it. -/
def kept (s : σ) (b : Char) : List Char :=
  if x.drops s then [] else keyword ++ [b]

/-- The state behind a keyword and a blank. -/
def behind (s : σ) (b : Char) : σ :=
  if x.drops s then x.skip s else (keyword ++ [b]).foldl x.read s

theorem run_cons {s : σ} {c : Char} {r : List Char}
    (h : begins (c :: r) = false ∨ x.drops s = false) :
    x.run s 0 (c :: r) = c :: x.run (x.read s c) 0 r := by
  have stays : (begins (c :: r) && x.drops s) = false := Bool.and_eq_false_iff.mpr h
  rw [run, stays]
  rfl

theorem run_keyword (s : σ) {b : Char} (blank : isBlank b = true) (r : List Char) :
    x.run s 0 (keyword ++ b :: r) = x.kept s b ++ x.run (x.behind s b) 0 r := by
  have here : begins (keyword ++ b :: r) = true := begins_iff.mpr ⟨b, r, rfl, blank⟩
  unfold kept behind
  cases drops : x.drops s with
  | true =>
    change x.run s 0 ('a' :: (['w', 'a', 'i', 't'] ++ b :: r)) = _
    have goes : (begins ('a' :: (['w', 'a', 'i', 't'] ++ b :: r)) && x.drops s) = true := by
      rw [drops, Bool.and_true]
      exact here
    rw [run, goes]
    rfl
  | false =>
    have inside {c : Char} {t : List Char} (other : begins (c :: t) = false) (s : σ) :
        x.run s 0 (c :: t) = c :: x.run (x.read s c) 0 t := x.run_cons (.inl other)
    have last : begins (b :: r) = false := by
      rw [← Bool.not_eq_true]
      intro begun
      obtain ⟨_, _, same, -⟩ := begins_iff.mp begun
      obtain ⟨rfl, -⟩ := List.cons.inj same
      exact absurd blank (by decide)
    change x.run s 0 ('a' :: 'w' :: 'a' :: 'i' :: 't' :: b :: r) = _
    rw [x.run_cons (.inr drops), inside rfl, inside rfl, inside rfl, inside rfl, inside last]
    rfl

/-- A keyword behind a character of a word stays. -/
def IsLawful : Prop :=
  ∀ s c, isWord c = true → x.drops (x.read s c) = false

variable {x}

theorem exists_of_run_append (lawful : x.IsLawful) {s : σ} {r w t : List Char}
    (word : ∀ c ∈ w, isWord c = true) (stays : begins r = false ∨ x.drops s = false)
    (left : x.run s 0 r = w ++ t) : ∃ r', r = w ++ r' ∧ x.run (w.foldl x.read s) 0 r' = t := by
  induction w generalizing s r with
  | nil => exact ⟨r, rfl, left⟩
  | cons c w ih =>
    obtain ⟨first, others⟩ := List.forall_mem_cons.mp word
    cases r with
    | nil => cases left
    | cons d r =>
      rw [x.run_cons stays] at left
      obtain ⟨rfl, further⟩ := List.cons.inj left
      obtain ⟨r', rfl, rest⟩ := ih others (.inr (lawful s d first)) further
      exact ⟨r', rfl, rest⟩

/-- What is left begins with a keyword only if the text does. -/
theorem begins_run (lawful : x.IsLawful) {s : σ} {r : List Char} (h : begins r = false) :
    begins (x.run s 0 r) = false := by
  rw [← Bool.not_eq_true]
  intro begun
  obtain ⟨b, t, left, blank⟩ := begins_iff.mp begun
  obtain ⟨r', rfl, rest⟩ := exists_of_run_append lawful isWord_of_mem_keyword (.inl h) left
  have stays : x.drops (keyword.foldl x.read s) = false := lawful _ 't' (by decide +kernel)
  cases r' with
  | nil => cases rest
  | cons d r' =>
    rw [x.run_cons (.inr stays)] at rest
    obtain ⟨rfl, -⟩ := List.cons.inj rest
    rw [begins_iff.mpr ⟨d, r', rfl, blank⟩] at h
    cases h

/-- Keywords one after another. -/
def keywords (bs : List Char) : List Char :=
  bs.flatMap fun b => keyword ++ [b]

theorem keywords_cons (b : Char) (bs : List Char) :
    keywords (b :: bs) = keyword ++ b :: keywords bs := by
  simp [keywords]

theorem keywords_concat (bs : List Char) (b : Char) :
    keywords (bs ++ [b]) = keywords bs ++ (keyword ++ [b]) := by
  simp [keywords]

/-- A scan that has kept more keywords than another, and goes on to keep one wherever the other
does, leaves something else. -/
theorem run_ne_append (lawful : x.IsLawful) {y : Scan τ} {R : σ → τ → Prop}
    (ahead : ∀ {s t}, R s t → x.drops s = true ∨ y.drops t = false)
    (step : ∀ {s t b}, R s t → isBlank b = true → R (x.behind s b) (y.behind t b))
    {s : σ} {t : τ} (h : R s t) (bs : List Char)
    (blank : ∀ b ∈ bs, isBlank b = true) (more : bs ≠ [])
    (r : List Char) : x.run s 0 r ≠ keywords bs ++ y.run t 0 r := by
  induction r using keyword_induction generalizing s t bs with
  | nil =>
    obtain ⟨b, bs, rfl⟩ := List.exists_cons_of_ne_nil more
    rw [keywords_cons]
    exact fun same => absurd same (List.cons_ne_nil _ _).symm
  | found b r hb ih =>
    have next := step h hb
    have oneMore : ∀ c ∈ bs ++ [b], isBlank c = true := by
      intro c mem
      rcases List.mem_append.mp mem with old | new
      · exact blank c old
      · rwa [List.mem_singleton.mp new]
    intro same
    rw [x.run_keyword s hb, y.run_keyword t hb] at same
    cases goes : x.drops s with
    | true =>
      rw [kept, if_pos goes, List.nil_append, kept] at same
      split at same
      · exact ih next bs blank more same
      · rw [← List.append_assoc, ← keywords_concat] at same
        exact ih next (bs ++ [b]) oneMore (List.concat_ne_nil _ _) same
    | false =>
      -- Both keep the keyword, so the first of those that are ahead takes its place.
      have stays : y.drops t = false := (ahead h).resolve_left (by simp [goes])
      obtain ⟨b', bs, rfl⟩ := List.exists_cons_of_ne_nil more
      rw [kept, if_neg (by simp [goes]), kept, if_neg (by simp [stays]), keywords_cons] at same
      simp only [List.append_assoc, List.cons_append, List.nil_append, List.append_cancel_left_eq,
        List.cons.injEq] at same
      refine ih next (bs ++ [b]) (fun c mem => oneMore c ?_) (List.concat_ne_nil _ _) ?_
      · exact List.mem_cons_of_mem _ mem
      · rw [keywords_concat]
        simpa using same.2
  | other c r hc ih =>
    intro same
    have left := begins_run lawful (s := s) hc
    obtain ⟨b, bs, rfl⟩ := List.exists_cons_of_ne_nil more
    rw [same, keywords_cons, List.append_assoc, List.cons_append,
      begins_iff.mpr ⟨b, _, rfl, blank b List.mem_cons_self⟩] at left
    cases left

end Scan

/-! ### Keywords of the code -/

inductive QuoteMark where
  | single
  | double
  deriving DecidableEq, Repr

def QuoteMark.char : QuoteMark → Char
  | single => '\''
  | double => '"'

/-- Whether a place of a text is in the code, in quotes, or in quotes behind a backslash. -/
inductive Quoting where
  | code
  | quoted (mark : QuoteMark)
  | escaped (mark : QuoteMark)
  deriving DecidableEq, Repr

namespace Quoting

def next : Quoting → Char → Quoting
  | code, c => if c = '\'' then quoted .single else if c = '"' then quoted .double else code
  | quoted mark, c => if c = mark.char then code else if c = '\\' then escaped mark else quoted mark
  | escaped mark, _ => quoted mark

theorem next_eq_code_iff {c : Char} (single : c ≠ '\'') (double : c ≠ '"') (q : Quoting) :
    q.next c = code ↔ q = code := by
  cases q with
  | code => simp [next, single, double]
  | quoted mark =>
    have other : c ≠ mark.char := by cases mark <;> assumption
    rw [next, if_neg other]
    split <;> simp
  | escaped mark => simp [next]

/-- Without quotes the code stays code, and what is quoted stays quoted. -/
theorem foldl_next_eq_code_iff {w : List Char} (single : '\'' ∉ w)
    (double : '"' ∉ w) (q : Quoting) : w.foldl next q = code ↔ q = code := by
  induction w generalizing q with
  | nil => rfl
  | cons c w ih =>
    obtain ⟨single, single'⟩ := not_or.mp fun h => single (List.mem_cons.mpr h)
    obtain ⟨double, double'⟩ := not_or.mp fun h => double (List.mem_cons.mpr h)
    rw [List.foldl_cons, ih single' double', next_eq_code_iff (Ne.symm single) (Ne.symm double)]

end Quoting

/-- What quotes are open behind a text. -/
def quoting (u : List Char) : Quoting :=
  u.foldl Quoting.next .code

/-- Drops the keywords that are words of the code. -/
def inCode : Scan (Quoting × Bool) where
  read s c := (s.1.next c, isWord c)
  skip s := (s.1, false)
  drops s := s.1 == .code && !s.2

/-- The text without the keywords of its code, each with the blank behind it. -/
def withoutAwaits (s : List Char) : List Char :=
  inCode.run (.code, false) 0 s

/-- Drops the keywords behind blanks that are not used up. -/
def behindBlank : Scan Bool where
  read _ c := isBlank c
  skip _ := false
  drops free := free

theorem isLawful_inCode : inCode.IsLawful := by
  intro s c word
  simp [inCode, word]

theorem isLawful_behindBlank : behindBlank.IsLawful := by
  intro s c word
  change isBlank c = false
  rw [← Bool.not_eq_true]
  intro blank
  rw [isWord_of_isBlank blank] at word
  cases word

theorem foldl_read_inCode (u : List Char) :
    u.foldl inCode.read (.code, false) = (quoting u, u.getLast?.any isWord) := by
  induction u using List.reverseRecOn with
  | nil => rfl
  | append_singleton u c ih =>
    have further : quoting (u ++ [c]) = (quoting u).next c := List.foldl_concat ..
    rw [List.foldl_concat, ih, further, List.getLast?_concat]
    rfl

section Blank

variable {b : Char} (blank : isBlank b = true)
include blank

theorem foldl_next_keyword (q : Quoting) :
    (keyword ++ [b]).foldl Quoting.next q = .code ↔ q = .code := by
  refine Quoting.foldl_next_eq_code_iff ?_ ?_ q
  all_goals
    intro mem
    rcases List.mem_append.mp mem with inside | last
    · exact absurd inside (by decide)
    · rw [← List.mem_singleton.mp last] at blank
      exact absurd blank (by decide)

theorem behind_inCode (s : Quoting × Bool) :
    inCode.behind s b = (keyword ++ [b]).foldl inCode.read s := by
  unfold Scan.behind
  split
  · next drops =>
    obtain ⟨code, -⟩ := Bool.and_eq_true_iff.mp drops
    have code : s.1 = .code := beq_iff_eq.mp code
    have same : (keyword ++ [b]).foldl inCode.read s =
      ((keyword ++ [b]).foldl Quoting.next s.1, isWord b) := rfl
    rw [same, code, (foldl_next_keyword blank _).mpr rfl, isWord_of_isBlank blank]
    change (s.1, false) = _
    rw [code]
  · rfl

theorem behind_behindBlank (free : Bool) : behindBlank.behind free b = !free := by
  cases free with
  | true => rfl
  | false => exact blank

end Blank

theorem run_behindBlank {r : List Char} (h : begins r = false) (free free' : Bool) :
    behindBlank.run free 0 r = behindBlank.run free' 0 r := by
  cases r with
  | nil => rfl
  | cons c r => rw [behindBlank.run_cons (.inl h), behindBlank.run_cons (.inl h)]; rfl

/-! ### Where the scans agree -/

/-- The property holds of what precedes and what follows each keyword and the blank behind it. -/
def Everywhere (Q : List Char → List Char → Prop) (s : List Char) : Prop :=
  ∀ u b r, s = u ++ (keyword ++ b :: r) → isBlank b = true → Q u r

section Everywhere

variable {Q : List Char → List Char → Prop}

theorem everywhere_nil : Everywhere Q [] := by
  intro u b r same
  exact absurd same.symm (by simp)

theorem everywhere_keyword {b : Char} {r : List Char} (blank : isBlank b = true) :
    Everywhere Q (keyword ++ b :: r) ↔ Q [] r ∧
      Everywhere (fun u => Q ((keyword ++ [b]) ++ u)) r := by
  constructor
  · refine fun h => ⟨h [] b r rfl blank, fun u b' r' same blank' => ?_⟩
    exact h _ b' r' (by rw [same]; simp) blank'
  · rintro ⟨here, further⟩ u b' r' same blank'
    rcases eq_nil_or_of_keyword_append blank same with rfl | ⟨v, rfl, rest⟩
    · obtain ⟨-, rfl⟩ := List.cons.inj (List.append_cancel_left same)
      exact here
    · have behind := further v b' r' rest blank'
      simpa using behind

theorem everywhere_cons {c : Char} {r : List Char} (other : begins (c :: r) = false) :
    Everywhere Q (c :: r) ↔ Everywhere (fun u => Q ([c] ++ u)) r := by
  constructor
  · exact fun h u b r' same blank => h _ b r' (by rw [same]; rfl) blank
  · intro h u b r' same blank
    cases u with
    | nil =>
      rw [begins_iff.mpr ⟨b, r', same, blank⟩] at other
      cases other
    | cons d u =>
      obtain ⟨rfl, rest⟩ := List.cons.inj same
      exact h u b r' rest blank

end Everywhere

/-- Between these texts a keyword and a blank go in both scans, or in none. -/
def Agrees (u r : List Char) : Prop :=
  (quoting u = .code → u.getLast?.any isWord = false → u.getLast?.any isBlank = true ∧
    begins r = false) ∧ (quoting u ≠ .code → u.getLast?.any isBlank = false)

/-- Outside the code, what is dropped is missing for good. -/
theorem run_behindBlank_ne {s : Quoting × Bool} (quoted : s.1 ≠ .code) (free : Bool) {b : Char}
    (blank : isBlank b = true) (r : List Char) :
    behindBlank.run free 0 r ≠ (keyword ++ [b]) ++ inCode.run s 0 r := by
  have apart := Scan.run_ne_append (y := inCode) (R := fun _ s => s.1 ≠ .code) isLawful_behindBlank
    (fun {_ s} quoted => .inr (by simp [inCode, quoted]))
    (fun {_ s b} quoted blank => by
      rw [behind_inCode blank]
      exact fun code => quoted ((foldl_next_keyword blank s.1).mp code))
    (s := free) quoted [b] (by simpa using blank) (List.cons_ne_nil _ _) r
  rwa [Scan.keywords_cons] at apart

/-- In the code, what is not dropped is left for good. -/
theorem run_inCode_ne (free : Bool) {b : Char} (blank : isBlank b = true) (r : List Char) :
    inCode.run (.code, false) 0 r ≠ (keyword ++ [b]) ++ behindBlank.run free 0 r := by
  have apart :=
    Scan.run_ne_append (y := behindBlank) (R := fun s _ => s = (.code, false)) isLawful_inCode
    (fun same => .inl (by rw [same]; rfl)) (fun same _ => by rw [same]; rfl) rfl (t := free) [b]
    (by simpa using blank) (List.cons_ne_nil _ _) r
  rwa [Scan.keywords_cons] at apart

theorem run_ne_of_begins {r : List Char} (h : begins r = true) :
    behindBlank.run false 0 r ≠ inCode.run (.code, false) 0 r := by
  obtain ⟨b, r, rfl, blank⟩ := begins_iff.mp h
  rw [behindBlank.run_keyword _ blank, inCode.run_keyword _ blank]
  exact (run_inCode_ne _ blank r).symm

theorem getLast?_any_isWord {u : List Char} (h : u.getLast?.any isBlank = true) :
    u.getLast?.any isWord = false := by
  obtain ⟨c, last, blank⟩ := (Option.any_eq_true _ _).mp h
  rw [last, Option.any_some, isWord_of_isBlank blank]

theorem agrees_iff_of_drops {u r : List Char}
    (h : inCode.drops (quoting u, u.getLast?.any isWord) = true) :
    Agrees u r ↔ u.getLast?.any isBlank = true ∧ begins r = false := by
  have place : quoting u = .code ∧ u.getLast?.any isWord = false := by simpa [inCode] using h
  constructor
  · exact fun agrees => agrees.1 place.1 place.2
  · exact fun both => ⟨fun _ _ => both, fun other => absurd place.1 other⟩

theorem agrees_iff_of_not_drops {u r : List Char}
    (h : inCode.drops (quoting u, u.getLast?.any isWord) = false) :
    Agrees u r ↔ u.getLast?.any isBlank = false := by
  have place : quoting u = .code → u.getLast?.any isWord = true := by simpa [inCode] using h
  constructor
  · intro agrees
    by_cases code : quoting u = .code
    · rw [← Bool.not_eq_true]
      intro blank
      rw [getLast?_any_isWord blank] at place
      cases place code
    · exact agrees.2 code
  · exact fun stays => ⟨fun code other => absurd (place code) (by simp [other]), fun _ => stays⟩

/-- One keyword: the scans agree from it on exactly if they agree there and behind it. -/
theorem run_keyword_iff (u : List Char) {b : Char} (blank : isBlank b = true) (r : List Char) :
    behindBlank.run (u.getLast?.any isBlank) 0 (keyword ++ b :: r) =
        inCode.run (quoting u, u.getLast?.any isWord) 0 (keyword ++ b :: r) ↔
      Agrees u r ∧ behindBlank.run true 0 r =
        inCode.run (quoting (u ++ (keyword ++ [b])), false) 0 r := by
  have behind : inCode.behind (quoting u, u.getLast?.any isWord) b =
      (quoting (u ++ (keyword ++ [b])), false) := by
    rw [behind_inCode blank, ← foldl_read_inCode, ← List.foldl_append, foldl_read_inCode,
      ← List.append_assoc, List.getLast?_concat, Option.any_some, isWord_of_isBlank blank]
  have quoted : quoting (u ++ (keyword ++ [b])) = .code ↔ quoting u = .code := by
    rw [quoting, List.foldl_append]
    exact foldl_next_keyword blank _
  rw [behindBlank.run_keyword _ blank, inCode.run_keyword _ blank, behind_behindBlank blank, behind]
  unfold Scan.kept
  cases goes : inCode.drops (quoting u, u.getLast?.any isWord) with
  | true =>
    have code : quoting u = .code := by simpa using (Bool.and_eq_true_iff.mp goes).1
    rw [agrees_iff_of_drops goes, quoted.mpr code]
    cases free : u.getLast?.any isBlank with
    | true =>
      change behindBlank.run false 0 r = inCode.run (.code, false) 0 r ↔ _
      cases next : begins r with
      | true => simpa using run_ne_of_begins next
      | false => simp [run_behindBlank next false true]
    | false =>
      change (keyword ++ [b]) ++ behindBlank.run true 0 r = inCode.run (.code, false) 0 r ↔ _
      simpa using (run_inCode_ne true blank r).symm
  | false =>
    rw [agrees_iff_of_not_drops goes]
    cases free : u.getLast?.any isBlank with
    | true =>
      have other : quoting u ≠ .code := by simpa [inCode, getLast?_any_isWord free] using goes
      change behindBlank.run false 0 r = (keyword ++ [b]) ++ _ ↔ _
      simpa using run_behindBlank_ne (mt quoted.mp other) false blank r
    | false =>
      change (keyword ++ [b]) ++ _ = (keyword ++ [b]) ++ _ ↔ _
      rw [List.append_cancel_left_eq]
      exact (and_iff_right rfl).symm

theorem run_eq_run_iff (u s : List Char) :
    behindBlank.run (u.getLast?.any isBlank) 0 s =
      inCode.run (quoting u, u.getLast?.any isWord) 0 s ↔
        Everywhere (fun v => Agrees (u ++ v)) s := by
  induction s using keyword_induction generalizing u with
  | nil => exact ⟨fun _ => everywhere_nil, fun _ => rfl⟩
  | found b r blank ih =>
    have further := ih (u ++ (keyword ++ [b]))
    rw [← List.append_assoc, List.getLast?_concat, Option.any_some, Option.any_some, blank,
      isWord_of_isBlank blank, List.append_assoc] at further
    rw [run_keyword_iff u blank, everywhere_keyword blank, List.append_nil, further]
    simp only [List.append_assoc]
  | other c r hc ih =>
    have further := ih (u ++ [c])
    have read : inCode.read (quoting u, u.getLast?.any isWord) c =
        (quoting (u ++ [c]), isWord c) := by
      have whole := foldl_read_inCode (u ++ [c])
      rwa [List.foldl_concat, foldl_read_inCode, List.getLast?_concat, Option.any_some] at whole
    rw [List.getLast?_concat, Option.any_some, Option.any_some] at further
    rw [everywhere_cons hc, behindBlank.run_cons (.inl hc), inCode.run_cons (.inl hc),
      read, List.cons.injEq]
    simp only [true_and, List.append_assoc] at further ⊢
    exact further

/-! ### The rule -/

/-- A keyword between blanks. -/
def pattern : Pattern :=
  seqAll (group 1 (char .blank) :: (chars keyword ++ [group 2 (char .blank)]))

theorem pattern_spelled :
    (Pattern.ofSource r"(\s)await(\s)".toList).toOption = some (pattern, []) := by
  decide +kernel

def rule : Rule :=
  ⟨⟨r"(\s)await(\s)", pattern, []⟩, "${1}"⟩

theorem ofTexts_rule : Rule.ofTexts r"(\s)await(\s)" "${1}" = .ok rule := by
  have read : Matcher.ofSource r"(\s)await(\s)" = .ok ⟨r"(\s)await(\s)", pattern, []⟩ := by
    rw [Matcher.ofSource, eq_ok_of_toOption pattern_spelled]
    rfl
  rw [Rule.ofTexts, read]
  rfl

theorem python2_eq_rule {glossary : Name.Glossary} {hierarchy : Hierarchy} {passes : Nat}
    {book : RuleBook} (made : RuleBook.make glossary hierarchy passes = .ok book) :
    book.python2 = ⟨"python2", [rule]⟩ := by
  have read : Ruleset.python2 = .ok ⟨"python2", [rule]⟩ := by
    rw [Ruleset.python2, Ruleset.ofTable, List.mapM_cons, List.mapM_nil, ofTexts_rule]
    rfl
  exact Except.ok.inj ((RuleBook.isMade_of_make made).python2.symm.trans read)

theorem isTame_pattern : pattern.isTame = true := by decide

theorem looks_pattern : pattern.looks = false := by decide

theorem solid_pattern : pattern.nullable = false := by decide

theorem matchAt_pattern {c b : Char} (hc : isBlank c = true) (hb : isBlank b = true)
    (r : List Char) : pattern.matchAt none (c :: (keyword ++ b :: r)) =
      some ⟨c :: (keyword ++ [b]), [(2, [b]), (1, [c])]⟩ := by
  let start := Cursor.start none (c :: (keyword ++ b :: r))
  have opening : (char .blank).ways start.enter = [start.enter.past [c]] := ways_char rfl hc
  have word : (start.noting 1 [c]).rest = keyword ++ b :: r := rfl
  have rest : ((start.noting 1 [c]).past keyword).rest = b :: r := Cursor.rest_past word
  have closing : (char .blank).ways ((start.noting 1 [c]).past keyword).enter =
      [((start.noting 1 [c]).past keyword).enter.past [b]] := ways_char rest hb
  rw [matchAt_eq_ways isTame_pattern]
  change (pattern.ways start).head?.map Cursor.toMatch = _
  rw [pattern, ways_group_cons, opening, List.flatMap_singleton, Cursor.leave_past_enter,
    ways_chars_append word, ways_group_cons, closing, List.flatMap_singleton]
  rfl

theorem matchAt_pattern_eq_none {c : Char} {s : List Char}
    (h : isBlank c = false ∨ begins s = false) : pattern.matchAt none (c :: s) = none := by
  refine Option.not_isSome_iff_eq_none.mp fun found => ?_
  obtain ⟨e, mem⟩ := (isSome_matchAt_iff isTame_pattern).mp found
  rw [pattern, ways_group_cons] at mem
  obtain ⟨d, first, mem⟩ := List.mem_flatMap.mp mem
  obtain ⟨c', s', whole, blank, rfl⟩ := mem_ways_char.mp first
  obtain ⟨rfl, rfl⟩ := List.cons.inj whole
  rw [Cursor.leave_past_enter] at mem
  obtain ⟨r, begun, rest, mem⟩ := mem_ways_chars_append mem
  rw [ways_group_cons] at mem
  obtain ⟨d, last, -⟩ := List.mem_flatMap.mp mem
  obtain ⟨b, r', behind, blank', -⟩ := mem_ways_char.mp last
  have word : s = keyword ++ b :: r' := by
    have here : s = keyword ++ r := begun
    rw [here, ← rest]
    exact congrArg (keyword ++ ·) behind
  rcases h with visible | other
  · exact absurd (visible.symm.trans blank) (by decide)
  · rw [begins_iff.mpr ⟨b, r', word, blank'⟩] at other
    cases other

theorem apply_rule_cons {c : Char} {s : List Char} (h : isBlank c = false ∨ begins s = false) :
    rule.apply (c :: s) = c :: rule.apply s :=
  replaceAll_cons isTame_pattern looks_pattern (matchAt_pattern_eq_none h)

theorem apply_rule_hit {c b : Char} (hc : isBlank c = true) (hb : isBlank b = true)
    (r : List Char) : rule.apply (c :: (keyword ++ b :: r)) = c :: rule.apply r := by
  have parts : Template.parts "${1}".toList = [.group 1] := by decide +kernel
  have hit :=
    replaceAll_hit (f := Template.expand [] (Template.parts "${1}".toList)) (s := r) isTame_pattern
    looks_pattern solid_pattern (m := ⟨c :: (keyword ++ [b]), [(2, [b]), (1, [c])]⟩)
    (by rw [List.cons_append, List.append_assoc]; exact matchAt_pattern hc hb r)
  rw [List.cons_append, List.append_assoc] at hit
  refine hit.trans ?_
  rw [parts]
  rfl

theorem apply_rule_keyword (s : List Char) :
    rule.apply (keyword ++ s) = keyword ++ rule.apply s := by
  have checked : (keyword.all fun c => !isBlank c) = true := by decide
  have visible : ∀ c ∈ keyword, isBlank c = false := by simpa using checked
  refine replaceAll_copy isTame_pattern looks_pattern fun v inside full => ?_
  obtain ⟨c, v, rfl⟩ := List.exists_cons_of_ne_nil full
  exact matchAt_pattern_eq_none (.inl (visible c (inside.subset List.mem_cons_self)))

/-- The rule drops the keywords behind blanks. -/
theorem apply_rule (s : List Char) : rule.apply s = behindBlank.run false 0 s := by
  -- A keyword goes or stays with the blank before it, so the text is followed with and without one.
  suffices both : rule.apply s = behindBlank.run false 0 s ∧
      ∀ c, isBlank c = true → rule.apply (c :: s) = c :: behindBlank.run true 0 s from both.1
  have nothing : rule.apply [] = [] := replaceAll_nil solid_pattern
  induction s using keyword_induction with
  | nil =>
    refine ⟨nothing, fun c _ => ?_⟩
    rw [apply_rule_cons (.inr rfl), nothing]
    rfl
  | found b r hb ih =>
    rw [behindBlank.run_keyword _ hb, behindBlank.run_keyword _ hb, behind_behindBlank hb,
      behind_behindBlank hb]
    constructor
    · rw [apply_rule_keyword, ih.2 b hb]
      exact (List.append_assoc keyword [b] _).symm
    · intro c hc
      rw [apply_rule_hit hc hb, ih.1]
      rfl
  | other d r hd ih =>
    have here : rule.apply (d :: r) = behindBlank.run false 0 (d :: r) := by
      rw [behindBlank.run_cons (.inl hd)]
      cases blank : isBlank d with
      | true =>
        rw [ih.2 d blank]
        exact congrArg (fun free => d :: behindBlank.run free 0 r) blank.symm
      | false =>
        rw [apply_rule_cons (.inl blank), ih.1]
        exact congrArg (fun free => d :: behindBlank.run free 0 r) blank.symm
    refine ⟨here, fun c _ => ?_⟩
    rw [apply_rule_cons (.inr hd), here, run_behindBlank hd false true]

end Await

open Await

theorem Render.Python.python2Text_eq {glossary : Name.Glossary} {hierarchy : Hierarchy}
    {passes : Nat} {book : RuleBook} (made : RuleBook.make glossary hierarchy passes = .ok book)
    (text : String) :
    python2Text book text = String.ofList (behindBlank.run false 0 text.toList) := by
  have whole : (Ruleset.mk "python2" [rule]).applyChars text.toList = rule.apply text.toList := rfl
  rw [python2Text, python2_eq_rule made, Ruleset.apply, whole, apply_rule]

/-- The text of the earlier generation is that of the later one without the keywords of its code
exactly if each of these stands behind a blank and none follows another at once, and if no keyword
before a blank that stands in quotes is behind a blank. -/
theorem Render.Python.python2Text_eq_iff {glossary : Name.Glossary}
    {hierarchy : Hierarchy} {passes : Nat} {book : RuleBook}
    (made : RuleBook.make glossary hierarchy passes = .ok book) (text : String) :
    python2Text book text = String.ofList (withoutAwaits text.toList) ↔
      ∀ u b r, text.toList = u ++ (keyword ++ b :: r) → isBlank b = true →
        (quoting u = .code → u.getLast?.any isWord = false → u.getLast?.any isBlank = true ∧
          begins r = false) ∧
        (quoting u ≠ .code → u.getLast?.any isBlank = false) := by
  have agreement := run_eq_run_iff [] text.toList
  rw [python2Text_eq made, String.ofList_inj]
  exact agreement

theorem Render.Python.python2Text_eq_iff_spaced :
    ∃ book, RuleBook.make (.ofNames Name.standard) .builtin RuleBook.standardPasses = .ok book ∧
      python2Text book "    x = await  await self.f('(await it)')" =
        "    x =  self.f('(await it)')" ∧
      ∀ u b r, "    x = await  await self.f('(await it)')".toList = u ++ (keyword ++ b :: r) →
        isBlank b = true →
          (quoting u = .code → u.getLast?.any isWord = false → u.getLast?.any isBlank = true ∧
            begins r = false) ∧
        (quoting u ≠ .code → u.getLast?.any isBlank = false) := by
  obtain ⟨book, made, -⟩ := RuleBook.exists_make (.ofNames Name.standard) .builtin
    (show RuleBook.standardPasses ≠ 0 by decide)
  have expected : String.ofList (withoutAwaits "    x = await  await self.f('(await it)')".toList) =
      "    x =  self.f('(await it)')" := by decide +kernel
  have text : python2Text book "    x = await  await self.f('(await it)')" =
      "    x =  self.f('(await it)')" := by
    rw [python2Text_eq made]
    decide +kernel
  exact ⟨book, made, text, (python2Text_eq_iff made _).mp (text.trans expected.symm)⟩

/-- Behind a parenthesis the keyword is left. -/
theorem Render.Python.python2Text_keeps_await :
    ∃ book, RuleBook.make (.ofNames Name.standard) .builtin RuleBook.standardPasses = .ok book ∧
      python2Text book "        x = self.parse(await self.fetch())" =
        "        x = self.parse(await self.fetch())" ∧
      String.ofList (withoutAwaits "        x = self.parse(await self.fetch())".toList) =
        "        x = self.parse(self.fetch())" := by
  obtain ⟨book, made, -⟩ := RuleBook.exists_make (.ofNames Name.standard) .builtin
    (show RuleBook.standardPasses ≠ 0 by decide)
  refine ⟨book, made, ?_, by decide +kernel⟩
  rw [python2Text_eq made]
  decide +kernel

end Polyglot

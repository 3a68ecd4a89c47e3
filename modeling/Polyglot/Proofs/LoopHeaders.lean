import Polyglot.Proofs.Counting
import Polyglot.Proofs.Tables

/-!
The texts of a loop that counts: the header as it is written, without the declaration, and with a
range. Of each there is a sketch, and it is known which words stand in it. Nothing is said of the
name and of the two numbers but what characters they are made of.
-/

namespace Polyglot

open Pattern Text
open Ruleset (IsKnownWord)
open Sketch (Shows exactly shows_exactly shows_many)

/-! ### Numbers -/

namespace Text

/-- A number as it is written. -/
inductive IsNumber : List Char → Prop where
  | positive {ds : List Char} (full : ds ≠ []) (digits : ∀ c ∈ ds, isAsciiDigit c = true) :
      IsNumber ds
  | negative {ds : List Char} (full : ds ≠ []) (digits : ∀ c ∈ ds, isAsciiDigit c = true) :
      IsNumber ('-' :: ds)

theorem isNumber_toString (a : Int) : IsNumber (toString a).toList := by
  have digits (n : Nat) : ∀ c ∈ Nat.toDigits 10 n, isAsciiDigit c = true := by
    intro c hc
    have digit := Nat.isDigit_of_mem_toDigits (by decide) (by decide) hc
    simpa [Char.isDigit, isAsciiDigit, Char.le_def] using digit
  change IsNumber a.repr.toList
  rw [Int.repr_eq_if]
  split
  · rw [Nat.toList_repr]
    exact .positive Nat.toDigits_ne_nil (digits _)
  · rw [String.toList_append, Nat.toList_repr]
    exact .negative Nat.toDigits_ne_nil (digits _)

theorem isAsciiWord_of_isAsciiDigit {c : Char} (h : isAsciiDigit c = true) :
    isAsciiWord c = true := by
  simp [isAsciiWord, h]

/-- The characters of names. -/
def nameRanges : Ranges :=
  [(48, 57), (65, 90), (95, 95), (97, 122)]

theorem covers_nameRanges {c : Char} (h : isAsciiWord c = true) : nameRanges.Covers c.toNat :=
  forall_isAsciiWord (P := fun c => nameRanges.Covers c.toNat) (by decide +kernel) h

/-- The characters of numbers. -/
def numberRanges : Ranges :=
  [(45, 45), (48, 57)]

theorem IsNumber.ne_nil {n : List Char} (h : IsNumber n) : n ≠ [] := by
  cases h with
  | positive full _ => exact full
  | negative _ _ => exact List.cons_ne_nil _ _

theorem IsNumber.forall_mem {P : Char → Prop} {n : List Char} (h : IsNumber n) (minus : P '-')
    (digit : ∀ c, isAsciiDigit c = true → P c) : ∀ c ∈ n, P c := by
  cases h with
  | positive _ digits => exact fun c hc => digit c (digits c hc)
  | negative _ digits => exact List.forall_mem_cons.mpr ⟨minus, fun c hc => digit c (digits c hc)⟩

theorem IsNumber.covers_numberRanges {n : List Char} (h : IsNumber n) :
    ∀ c ∈ n, numberRanges.Covers c.toNat :=
  h.forall_mem (by decide) fun _ digit =>
    forall_isAsciiWord (P := fun c => isAsciiDigit c = true → numberRanges.Covers c.toNat)
      (by decide +kernel) (isAsciiWord_of_isAsciiDigit digit) digit

theorem EachWord.number {P : List Char → Prop} {n s : List Char} (hn : IsNumber n)
    (stop : s.head?.any isAsciiWord = false) (here : ∀ ds, (∀ d ∈ ds, isAsciiDigit d = true) → P ds)
    (h : EachWord P s) : EachWord P (n ++ s) := by
  cases hn with
  | positive _ digits =>
    exact .word (fun d hd => isAsciiWord_of_isAsciiDigit (digits d hd)) stop
      (fun _ => here _ digits) h
  | @negative ds _ digits =>
    refine .symbols (q := ['-']) (by decide) ?_
    exact .word (fun d hd => isAsciiWord_of_isAsciiDigit (digits d hd)) stop
      (fun _ => here _ digits) h

end Text

/-! ### Words -/

namespace Text

def forWord : List Char :=
  ['f', 'o', 'r']

def letWord : List Char :=
  ['l', 'e', 't']

def constWord : List Char :=
  ['c', 'o', 'n', 's', 't']

def varWord : List Char :=
  ['v', 'a', 'r']

def instanceofWord : List Char :=
  ['i', 'n', 's', 't', 'a', 'n', 'c', 'e', 'o', 'f']

def inWord : List Char :=
  ['i', 'n']

def rangeWord : List Char :=
  ['r', 'a', 'n', 'g', 'e']

theorem EachWord.fixed {name w s : List Char} {fixed : List (List Char)} (mem : w ∈ fixed)
    (hw : IsAsciiName w) (stop : s.head?.any isAsciiWord = false)
    (h : EachWord (IsKnownWord name fixed) s) : EachWord (IsKnownWord name fixed) (w ++ s) :=
  .word hw.word stop (fun _ => .inr (.inl mem)) h

end Text

/-! ### The texts of a header -/

/-- What a header is made of. -/
structure HeaderParts where
  name : List Char
  first : List Char
  test : LoopTest
  last : List Char
  isName : IsAsciiName name
  isFirst : IsNumber first
  isLast : IsNumber last

namespace HeaderParts

/-- What a header begins with. -/
def opening : List Char :=
  forWord ++ [' ']

/-- What the clauses stand behind where they declare the variable. -/
def declarer : List Char :=
  '(' :: (letWord ++ [' '])

/-- What stands between the name and the range. -/
def ranger : List Char :=
  ' ' :: (inWord ++ (' ' :: (rangeWord ++ ['('])))

/-- The clauses of a header, from the name of the variable on. -/
def clauses (x : HeaderParts) : List Char :=
  x.name ++ ([' ', '=', ' '] ++ (x.first ++ ([';', ' '] ++ (x.name ++ ([' '] ++
    (x.test.sign.toList ++ ([' '] ++ (x.last ++ ([';', ' '] ++ (x.name ++
      (x.test.change.toList ++ [')', ' ', '{'])))))))))))

/-- The header as it is written. -/
def declared (x : HeaderParts) : List Char :=
  opening ++ (declarer ++ x.clauses)

/-- The header without the declaration. -/
def opened (x : HeaderParts) : List Char :=
  opening ++ (['('] ++ x.clauses)

/-- The header with a range. -/
def ranged (x : HeaderParts) : List Char :=
  opening ++ (x.name ++ (ranger ++ (x.first ++ ([',', ' '] ++ (x.last ++ [')', ':'])))))

def clausesSketch : Sketch :=
  [.many nameRanges] ++ (exactly [' ', '=', ' '] ++ ([.many numberRanges] ++ (exactly [';', ' '] ++
    ([.many nameRanges] ++ (exactly [' '] ++ ([.once [(60, 60), (62, 62)], .maybe [(61, 61)]] ++
      (exactly [' '] ++ ([.many numberRanges] ++ (exactly [';', ' '] ++ ([.many nameRanges] ++
        ([.once [(43, 43), (45, 45)], .once [(43, 43), (45, 45)]] ++
          exactly [')', ' ', '{'])))))))))))

def declaredSketch : Sketch :=
  exactly opening ++ (exactly declarer ++ clausesSketch)

def openedSketch : Sketch :=
  exactly opening ++ (exactly ['('] ++ clausesSketch)

def rangedSketch : Sketch :=
  exactly opening ++ ([.many nameRanges] ++ (exactly ranger ++ ([.many numberRanges] ++
    (exactly [',', ' '] ++ ([.many numberRanges] ++ exactly [')', ':'])))))

variable (x : HeaderParts)

theorem shows_name : Shows [.many nameRanges] x.name :=
  shows_many fun c hc => covers_nameRanges (x.isName.word c hc)

theorem shows_clauses : Shows clausesSketch x.clauses := by
  have sign : Shows [.once [(60, 60), (62, 62)], .maybe [(61, 61)]] x.test.sign.toList := by
    cases x.test with
    | below => exact .once (by decide) (.leave .nil)
    | upTo => exact .once (by decide) (.take (by decide) .nil)
    | above => exact .once (by decide) (.leave .nil)
    | downTo => exact .once (by decide) (.take (by decide) .nil)
  have change : Shows [.once [(43, 43), (45, 45)], .once [(43, 43), (45, 45)]]
      x.test.change.toList := by
    cases x.test <;> exact .once (by decide) (.once (by decide) .nil)
  have first := shows_many x.isFirst.covers_numberRanges
  have last := shows_many x.isLast.covers_numberRanges
  exact x.shows_name.append ((shows_exactly _).append (first.append ((shows_exactly _).append
    (x.shows_name.append ((shows_exactly _).append (sign.append ((shows_exactly _).append
      (last.append ((shows_exactly _).append (x.shows_name.append (change.append
        (shows_exactly _))))))))))))

theorem shows_declared : Shows declaredSketch x.declared :=
  (shows_exactly _).append ((shows_exactly _).append x.shows_clauses)

theorem shows_opened : Shows openedSketch x.opened :=
  (shows_exactly _).append ((shows_exactly _).append x.shows_clauses)

theorem shows_ranged : Shows rangedSketch x.ranged :=
  (shows_exactly _).append (x.shows_name.append ((shows_exactly _).append
    ((shows_many x.isFirst.covers_numberRanges).append ((shows_exactly _).append
      ((shows_many x.isLast.covers_numberRanges).append (shows_exactly _))))))

theorem eachWord_clauses (fixed : List (List Char)) :
    EachWord (IsKnownWord x.name fixed) x.clauses := by
  have number (ds : List Char) (digits : ∀ d ∈ ds, isAsciiDigit d = true) :
      IsKnownWord x.name fixed ds := .inr (.inr digits)
  have named : x.name ≠ [] → IsKnownWord x.name fixed x.name := fun _ => .inl rfl
  have sign : (x.test.sign.toList.all fun c => !isAsciiWord c) = true := by
    cases x.test <;> decide
  have change : (x.test.change.toList.all fun c => !isAsciiWord c) = true := by
    cases x.test <;> decide
  have stop (s : List Char) : (x.test.change.toList ++ s).head?.any isAsciiWord = false := by
    cases x.test <;> rfl
  refine .word x.isName.word rfl named (.symbols (by decide) ?_)
  refine .number x.isFirst rfl number (.symbols (by decide) ?_)
  refine .word x.isName.word rfl named (.symbols (by decide) ?_)
  refine .symbols sign (.symbols (by decide) ?_)
  refine .number x.isLast rfl number (.symbols (by decide) ?_)
  refine .word x.isName.word (stop _) named (.symbols change ?_)
  exact .symbols (q := [')', ' ', '{']) (s := []) (by decide) .nil

theorem eachWord_declared : EachWord (IsKnownWord x.name [forWord, letWord]) x.declared := by
  refine .fixed (w := forWord) (by decide) (by decide) rfl ?_
  refine .symbols (q := [' ', '(']) (by decide) ?_
  refine .fixed (w := letWord) (by decide) (by decide) rfl ?_
  exact .symbols (q := [' ']) (by decide) (x.eachWord_clauses _)

theorem eachWord_opened : EachWord (IsKnownWord x.name [forWord]) x.opened := by
  refine .fixed (w := forWord) (by decide) (by decide) rfl ?_
  exact .symbols (q := [' ', '(']) (by decide) (x.eachWord_clauses _)

theorem eachWord_ranged :
    EachWord (IsKnownWord x.name [forWord, inWord, rangeWord]) x.ranged := by
  have number (ds : List Char) (digits : ∀ d ∈ ds, isAsciiDigit d = true) :
      IsKnownWord x.name [forWord, inWord, rangeWord] ds := .inr (.inr digits)
  refine .fixed (w := forWord) (by decide) (by decide) rfl ?_
  refine .symbols (q := [' ']) (by decide) (.word x.isName.word rfl (fun _ => .inl rfl) ?_)
  refine .symbols (q := [' ']) (by decide) (.fixed (w := inWord) (by decide) (by decide) rfl ?_)
  refine .symbols (q := [' ']) (by decide) (.fixed (w := rangeWord) (by decide) (by decide) rfl ?_)
  refine .symbols (q := ['(']) (by decide) (.number x.isFirst rfl number (.symbols (by decide) ?_))
  exact .number x.isLast rfl number (.symbols (q := [')', ':']) (s := []) (by decide) .nil)

end HeaderParts

end Polyglot

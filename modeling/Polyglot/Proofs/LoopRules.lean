import Mathlib.Data.List.Infix
import Polyglot.Proofs.CallSites
import Polyglot.Proofs.LoopHeaders
import Polyglot.Proofs.Slots

/-!
Three patterns on the header of a loop. The one of the declarations has a single match in it, before
the clauses; the one of the loops matches all of the header that is left, with the name and the two
numbers as its groups; and the one of the tests for a class has none, though each of its parts may
match somewhere in the header.
-/

namespace Polyglot

open Pattern Text
open Ruleset (wordSet has_wordSet)
open Sketch (exactly shows_exactly)

namespace HeaderParts

variable (x : HeaderParts)

/-! ### The declaration -/

theorem wordless {c : Char} (h : isBlank c = true) : isAsciiWord c = false :=
  Bool.eq_false_iff.mpr fun word => Bool.false_ne_true ((solid_of_isAsciiWord word).1.symm.trans h)

/-- What a declaration begins with. -/
def declarers : List (List Char) :=
  [letWord, constWord, varWord]

def declarationPattern : Pattern :=
  seqAll [group 1 (alt (look .textStart) (char (.compl wordSet))),
    altAll (declarers.map fun key => seqAll (chars key)), char .blank]

theorem mem_ways_declarers {c e : Cursor}
    (mem : e ∈ (seqAll [altAll (declarers.map fun key => seqAll (chars key)),
      char .blank]).ways c) :
    ∃ key ∈ declarers, ∃ d r, c.rest = key ++ d :: r ∧ isBlank d = true := by
  have read {key : List Char} (mem : e ∈ (seqAll [seqAll (chars key), char .blank]).ways c) :
      ∃ d r, c.rest = key ++ d :: r ∧ isBlank d = true := by
    rw [ways_seqAll_cons] at mem
    obtain ⟨f, hf, mem⟩ := List.mem_flatMap.mp mem
    obtain ⟨r, hr, rfl⟩ := mem_ways_chars.mp hf
    obtain ⟨d, s, hs, -, blank, -⟩ := mem_ways_char_cons mem
    rw [Cursor.rest_past hr] at hs
    exact ⟨d, s, by rw [hr, hs], blank⟩
  rw [declarers] at mem
  simp only [List.map_cons, List.map_nil, altAll, ways_alt_cons, List.mem_append] at mem
  rcases mem with mem | mem | mem
  · exact ⟨_, by simp [declarers], read mem⟩
  · exact ⟨_, by simp [declarers], read mem⟩
  · exact ⟨_, by simp [declarers], read mem⟩

/-- Inside a text, a declaration begins behind a character that belongs to no word. -/
theorem exists_declarer {b : Char} {s : List Char}
    (h : (declarationPattern.matchAt (some b) s).isSome = true) :
    ∃ key ∈ declarers, ∃ x d r, s = x :: (key ++ d :: r) ∧ isAsciiWord x =
      false ∧ isBlank d = true := by
  obtain ⟨e, mem⟩ := (isSome_matchAt_iff (by decide)).mp h
  rw [declarationPattern, ways_edge_cons, if_neg (by simp), List.nil_append] at mem
  obtain ⟨f, hf, mem⟩ := List.mem_flatMap.mp mem
  obtain ⟨x, r, hr, has, rfl⟩ := mem_ways_char.mp hf
  obtain ⟨key, hkey, d, r', rest, blank⟩ := mem_ways_declarers mem
  have start : (Cursor.start (some b) s).rest = [x] ++ r := hr
  rw [Cursor.leave_past_enter, Cursor.rest_noting 1 start] at rest
  refine ⟨key, hkey, x, d, r', ?_, by simpa [has_wordSet] using has, blank⟩
  rw [← rest]
  exact start

theorem isAsciiName_declarer {key : List Char} (h : key ∈ declarers) :
    IsAsciiName key ∧ ∃ c ∈ key, isAsciiDigit c = false := by
  have checked : (declarers.all fun key =>
      decide (IsAsciiName key) && key.any fun c => !isAsciiDigit c) = true := by
    decide
  simpa using List.all_eq_true.mp checked key h

theorem isMatch_declarer : ∀ key ∈ declarers, declarationPattern.isMatch (alone key) = true := by
  decide +kernel

theorem matchAt_declaration (r : List Char) :
    declarationPattern.matchAt (some ' ') (declarer ++ r) = some ⟨declarer, [(1, ['('])]⟩ := by
  let c := Cursor.start (some ' ') (declarer ++ r)
  have entered : c.enter.rest = '(' :: (letWord ++ ([' '] ++ r)) := rfl
  have rest : (c.noting 1 ['(']).rest = letWord ++ ([' '] ++ r) := rfl
  rw [matchAt_eq_ways (by decide), declarationPattern, ways_edge_cons,
    if_neg (by simp), List.nil_append, ways_char entered (by decide), List.flatMap_singleton,
    Cursor.leave_past_enter]
  simp only [declarers, List.map_cons, List.map_nil, altAll]
  rw [ways_alt_cons, ways_seqAll_cons, ways_chars rest, List.flatMap_singleton]
  rw [show (seqAll [char .blank]).ways ((c.noting 1 ['(']).past letWord) = _ from
    ways_char (Cursor.rest_past rest) (by decide)]
  rfl

/-- The clauses declare nothing more, if the name is none that declares. -/
theorem matchAt_declaration_clauses {u w : List Char}
    (idle : declarationPattern.isMatch (alone x.name) = false)
    (whole : x.clauses = u ++ w) (before : Char) :
    declarationPattern.matchAt (some before) w = none := by
  refine Option.not_isSome_iff_eq_none.mp fun found => ?_
  obtain ⟨key, hkey, c, d, r, rfl, hc, hd⟩ := exists_declarer found
  obtain ⟨name, e, he, letter⟩ := isAsciiName_declarer hkey
  have stands : StandsIn key x.clauses := by
    refine ⟨u ++ [c], d :: r, by rw [whole, List.append_assoc]; rfl, ?_, wordless hd⟩
    rw [List.getLast?_concat]
    exact hc
  rcases x.eachWord_clauses [] key name stands with rfl | member | digits
  · exact Bool.false_ne_true (idle.symm.trans (isMatch_declarer _ hkey))
  · cases member
  · exact Bool.false_ne_true (letter.symm.trans (digits e he))

/-- The declaration is taken away. -/
theorem replaceAll_declaration (idle : declarationPattern.isMatch (alone x.name) = false)
    {f : Match → List Char} (hf : f ⟨declarer, [(1, ['('])]⟩ = ['(']) :
    declarationPattern.replaceAll f x.declared = x.opened := by
  have solid : declarationPattern.nullable = false := by decide
  have behind : declarationPattern.replaceFrom f (some ' ') x.clauses = x.clauses := by
    have copied : declarationPattern.replaceFrom f (some ' ') (x.clauses ++ []) = _ :=
      replaceFrom_copy fun u w whole _ => by
        rw [List.append_nil]
        cases u.getLast? <;> exact x.matchAt_declaration_clauses idle whole _
    rwa [replaceFrom_nil solid, List.append_nil] at copied
  have before : ∀ w ∈ opening.tails, w ≠ [] →
      declarationPattern.reach (exactly w ++ (exactly declarer ++ clausesSketch)) = [] := by
    decide +kernel
  rw [replaceAll_eq_replaceFrom, declared, replaceFrom_copy]
  · have hit := replaceFrom_hit (f := f) (m := ⟨declarer, [(1, ['('])]⟩) solid
      (matchAt_declaration x.clauses)
    rw [hf] at hit
    exact congrArg (opening ++ ·) (hit.trans (congrArg (['('] ++ ·) behind))
  · intro u w whole full
    have ending : w ∈ opening.tails := (List.mem_tails _ _).mpr ⟨u, whole.symm⟩
    have shown := (shows_exactly w).append ((shows_exactly declarer).append x.shows_clauses)
    exact matchAt_eq_none_of_reach shown (before w ending full) _

/-! ### The range -/

/-- Every character but some. -/
def besides (cs : List Char) : CharSet :=
  .compl (.ofItems (cs.map .single))

/-- The signs of the comparisons, those first that begin with another. -/
def signs : List (List Char) :=
  [['<', '='], ['>', '='], ['<'], ['>']]

/-- From the semicolon behind the bound on. -/
def closingParts : List Pattern :=
  [blanks, char (.single ';'), plus true (char (besides [')'])), char (.single ')'), blanks,
    char (.single '{')]

/-- The bound. -/
def boundParts : List Pattern :=
  blanks :: group 3 (star true (char (.compl (.single '\n')))) :: closingParts

/-- From the semicolon behind the first value on. -/
def testParts : List Pattern :=
  char (.single ';') :: plus true (char (besides ['<', '>', '='])) ::
    altAll (signs.map fun sign => seqAll (chars sign)) :: boundParts

def rangePattern : Pattern :=
  seqAll (chars forWord ++ (plus true (char .blank) :: char (.single '(') ::
    group 1 (plus true (char wordSet)) :: blanks :: char (.single '=') :: blanks ::
    group 2 (seqAll [plus true (char (.compl (.ofItems [.single ';', .blank]))),
      star true (char .blank)]) :: testParts))

theorem has_besides {cs : List Char} {c : Char} : (besides cs).has c = true ↔ c ∉ cs := by
  have listed (items : List Char) (set : CharSet) :
      ((items.map CharSet.single).foldl .union set).has c = (set.has c || decide (c ∈ items)) := by
    induction items generalizing set with
    | nil => simp
    | cons d items ih => simp [ih, Bool.or_assoc]
  simp [besides, CharSet.ofItems, listed]

section Range

variable {qs : List Pattern} {c : Cursor} {w b r : List Char}

theorem ways_closingParts (full : w ≠ []) (free : ')' ∉ w)
    (h : c.rest = ';' :: (w ++ [')', ' ', '{'])) :
    (seqAll closingParts).ways c = [c.past (';' :: (w ++ [')', ' ', '{']))] := by
  have first : (c.past [';']).rest = w ++ [')', ' ', '{'] := Cursor.rest_past (w := [';']) h
  have second : ((c.past [';']).past w).rest = [')', ' ', '{'] := Cursor.rest_past first
  have third : (((c.past [';']).past w).past [')']).rest = [' '] ++ ['{'] :=
    Cursor.rest_past (w := [')']) second
  have last : ((((c.past [';']).past w).past [')']).past [' ']).rest = ['{'] :=
    Cursor.rest_past third
  have inside : ∀ d ∈ w, (besides [')']).has d = true := by
    intro d hd
    refine has_besides.mpr fun closing => free ?_
    rwa [← List.mem_singleton.mp closing]
  have tight : c.rest.head?.any CharSet.blank.has = false := by
    rw [h]
    rfl
  have space : ∀ d ∈ [' '], CharSet.blank.has d = true := List.forall_mem_singleton.mpr rfl
  rw [closingParts, blanks, ways_star_cons .blank (w := []) (r := c.rest)
    (bars_single (by decide)) rfl (List.forall_mem_nil _) tight, Cursor.past_nil,
    ways_char_cons h (by decide),
    ways_plus_cons (besides [')']) (bars_single (by decide)) full first inside (by decide),
    ways_char_cons second (by decide), ways_star_cons .blank (bars_single (by decide)) third
      space (by decide)]
  rw [show (seqAll [char (.single '{')]).ways _ = _ from ways_char last (by decide)]
  simp only [Cursor.past_past, List.append_assoc, List.cons_append, List.nil_append]

/-- The bound is all up to the last semicolon. -/
theorem ways_boundParts (full : w ≠ []) (free : ')' ∉ w) (single : ';' ∉ w) (line : '\n' ∉ b ++ w)
    (tight : b.head?.any isBlank = false) (hb : b ≠ [])
    (h : c.rest = ' ' :: (b ++ (';' :: (w ++ [')', ' ', '{'])))) :
    ∃ more, (seqAll boundParts).ways c =
      [((c.past [' ']).noting 3 b).past (';' :: (w ++ [')', ' ', '{']))] ++ more := by
  have behind : (c.past [' ']).rest = b ++ (';' :: (w ++ [')', ' ', '{'])) :=
    Cursor.rest_past (w := [' ']) h
  have noted : ((c.past [' ']).noting 3 b).rest = ';' :: (w ++ [')', ' ', '{']) :=
    Cursor.rest_noting 3 behind
  -- The run over the rest of the line gives back what lies behind the bound: there is no second
  -- semicolon.
  have fails (u : List Char) (some : u ≠ []) (begins : u <+: ';' :: (w ++ [')', ' ', '{'])) :
      (seqAll closingParts).ways
        ((c.past [' ']).leave 3 ((c.past [' ']).enter.past (b ++ u))) = [] := by
    obtain ⟨t, ht⟩ := begins
    obtain ⟨d, u, rfl⟩ := List.exists_cons_of_ne_nil some
    have rest : ((c.past [' ']).noting 3 (b ++ d :: u)).rest = t :=
      Cursor.rest_noting 3 (by rw [behind, ← ht, List.append_assoc])
    rw [Cursor.leave_past_enter]
    refine List.eq_nil_iff_forall_not_mem.mpr fun e mem => ?_
    obtain ⟨g, s, hs, past, -, mem⟩ := mem_ways_star_cons mem
    obtain ⟨x, s', hs', -, has, -⟩ := mem_ways_char_cons mem
    obtain rfl : x = ';' := by simpa using has
    have inside : ';' ∈ w ++ [')', ' ', '{'] := by
      rw [← (List.cons.inj ht).2, ← rest, hs, ← past, hs']
      simp
    simp [single] at inside
  have stop : (b ++ ';' :: (w ++ [')', ' ', '{'])).head?.any CharSet.blank.has = false := by
    rw [List.head?_append_of_ne_nil _ hb]
    exact tight
  have inLine :
      ∀ d ∈ b ++ ';' :: (w ++ [')', ' ', '{']), (CharSet.compl (.single '\n')).has d = true := by
    intro d hd
    have other : d ≠ '\n' := by
      rintro rfl
      simp_all
    simpa using other
  obtain ⟨more, greedy⟩ : ∃ more,
      ((star true (char (.compl (.single '\n')))).ways (c.past [' ']).enter).flatMap
        (fun d => (seqAll closingParts).ways ((c.past [' ']).leave 3 d)) = _ ++ more :=
    flatMap_ways_star_greedy (r := []) (by rw [List.append_nil]; exact behind) inLine rfl fails
  obtain ⟨more', blank⟩ : ∃ more, ((star true (char .blank)).ways c).flatMap
      (seqAll (group 3 (star true (char (.compl (.single '\n')))) :: closingParts)).ways =
        _ ++ more :=
    flatMap_ways_star_greedy (w := [' ']) (v := []) (by rw [h]; rfl)
      (List.forall_mem_singleton.mpr rfl) stop
      fun u some begins => absurd (List.prefix_nil.mp begins) some
  refine ⟨more ++ more', ?_⟩
  rw [boundParts, ways_seqAll_cons, blanks, blank, ways_group_cons, greedy, Cursor.leave_past_enter,
    ways_closingParts full free noted, List.append_assoc]

/-- The sign that is meant is tried before any that it begins with. -/
theorem ways_signs {test : LoopTest} (h : c.rest = test.sign.toList ++ ' ' :: r) :
    ∃ more, (seqAll (altAll (signs.map fun sign => seqAll (chars sign)) :: qs)).ways c =
      (seqAll qs).ways (c.past test.sign.toList) ++ more := by
  simp only [signs, List.map_cons, List.map_nil, altAll, ways_alt_cons]
  cases test with
  | below =>
    have rest : c.rest = ['<'] ++ ' ' :: r := h
    rw [ways_word_cons_eq_nil (w := ['<', '=']) (by simp [rest]),
      ways_word_cons_eq_nil (w := ['>', '=']) (by simp [rest]), ways_word_cons rest]
    exact ⟨_, rfl⟩
  | upTo =>
    have rest : c.rest = ['<', '='] ++ ' ' :: r := h
    rw [ways_word_cons rest]
    exact ⟨_, rfl⟩
  | above =>
    have rest : c.rest = ['>'] ++ ' ' :: r := h
    rw [ways_word_cons_eq_nil (w := ['<', '=']) (by simp [rest]),
      ways_word_cons_eq_nil (w := ['>', '=']) (by simp [rest]),
      ways_word_cons_eq_nil (w := ['<']) (by simp [rest]), ways_word_cons rest]
    exact ⟨[], (List.append_nil _).symm⟩
  | downTo =>
    have rest : c.rest = ['>', '='] ++ ' ' :: r := h
    rw [ways_word_cons_eq_nil (w := ['<', '=']) (by simp [rest]), ways_word_cons rest]
    exact ⟨_, rfl⟩

theorem ways_testParts {test : LoopTest} {gap : List Char} (some : gap ≠ [])
    (plain : ∀ d ∈ gap, d ∉ ['<', '>', '=']) (full : w ≠ []) (free : ')' ∉ w) (single : ';' ∉ w)
    (line : '\n' ∉ b ++ w) (tight : b.head?.any isBlank = false) (hb : b ≠ [])
    (h : c.rest = ';' ::
      (gap ++ (test.sign.toList ++ ' ' :: (b ++ (';' :: (w ++ [')', ' ', '{'])))))) :
    ∃ more, (seqAll testParts).ways c =
      [(((c.past (';' :: (gap ++ test.sign.toList))).past [' ']).noting 3 b).past
        (';' :: (w ++ [')', ' ', '{']))] ++ more := by
  have first : (c.past [';']).rest =
      gap ++ (test.sign.toList ++ ' ' :: (b ++ (';' :: (w ++ [')', ' ', '{'])))) :=
    Cursor.rest_past (w := [';']) h
  have second := Cursor.rest_past first
  have third := Cursor.rest_past second
  have bars : Bars (altAll (signs.map fun sign => seqAll (chars sign)) :: boundParts)
      (besides ['<', '>', '=']) :=
    .alt (bars_word _ (by decide)) (.alt (bars_word _ (by decide))
      (.alt (bars_word _ (by decide)) (bars_word _ (by decide))))
  have stop (r : List Char) :
      (test.sign.toList ++ r).head?.any (besides ['<', '>', '=']).has = false := by
    cases test <;> rfl
  obtain ⟨more, signed⟩ := @ways_signs boundParts _ _ _ second
  obtain ⟨more', bounded⟩ := ways_boundParts full free single line tight hb third
  refine ⟨more' ++ more, ?_⟩
  rw [testParts, ways_char_cons h (by decide), ways_plus_cons _ bars some first
    (fun d hd => has_besides.mpr (plain d hd)) (stop _), signed, bounded, List.append_assoc]
  simp only [Cursor.past_past, List.append_assoc, List.cons_append, List.nil_append]

/-- Up to the first semicolon there is one way. -/
theorem ways_rangePattern {v a s : List Char} (hv : IsAsciiName v) (ha : a ≠ [])
    (tight : ∀ d ∈ a, d ≠ ';' ∧ isBlank d = false)
    (h : c.rest = forWord ++ ([' '] ++ ('(' :: (v ++ ([' '] ++ ('=' :: ([' '] ++
      (a ++ ([] ++ ';' :: s))))))))) :
    rangePattern.ways c = (seqAll testParts).ways
      (((c.past (opening ++ ['('])).noting 1 v).past [' ', '=', ' '] |>.noting 2 a) := by
  have spaced := Cursor.rest_past h
  have opened := Cursor.rest_past spaced
  have named := Cursor.rest_past_cons opened
  have declared := Cursor.rest_noting 1 named
  have assigned := Cursor.rest_past declared
  have valued := Cursor.rest_past_cons assigned
  have begun := Cursor.rest_past valued
  have space : ∀ d ∈ [' '], CharSet.blank.has d = true := List.forall_mem_singleton.mpr rfl
  have word : ∀ d ∈ v, wordSet.has d = true := fun d hd => by rw [has_wordSet, hv.word d hd]
  have apart (x : Char) (hx : wordSet.has x = true) : CharSet.blank.has x = false :=
    (solid_of_isAsciiWord (by rw [← has_wordSet, hx])).1
  have value : ∀ d ∈ a, (CharSet.compl (.ofItems [.single ';', .blank])).has d = true := by
    intro d hd
    simp [CharSet.ofItems, CharSet.has, tight d hd]
  have blankless (x : Char) (hx : (CharSet.compl (.ofItems [.single ';', .blank])).has x = true) :
      CharSet.blank.has x = false := by
    simp_all [CharSet.ofItems]
  have start : (a ++ ([] ++ ';' :: s)).head?.any CharSet.blank.has = false := by
    obtain ⟨d, a, rfl⟩ := List.exists_cons_of_ne_nil ha
    exact (tight d List.mem_cons_self).2
  have barred : Bars (group 2 (seqAll [plus true (char (.compl (.ofItems [.single ';', .blank]))),
      star true (char .blank)]) :: testParts) .blank :=
    .group 2 (bars_plus true fun x hx => Bool.eq_false_iff.mpr fun other =>
      Bool.false_ne_true ((blankless x other).symm.trans hx))
  have tests {set : CharSet} (other : set.has ';' = false) : Bars testParts set := bars_single other
  rw [rangePattern, blanks, ways_chars_append h,
    ways_plus_cons .blank (bars_single (by decide)) (by decide) spaced space rfl,
    ways_char_cons opened (by decide),
    ways_group_plus_cons 1 (.star true (bars_single (by decide)) apart) hv.full named word rfl,
    ways_star_cons .blank (bars_single (by decide)) declared space rfl,
    ways_char_cons assigned (by decide),
    ways_star_cons .blank barred valued space start,
    ways_group_plus_star_cons 2 (tests (by decide)) (tests (by decide)) blankless ha begun value
      (List.forall_mem_nil _) rfl rfl]
  simp only [opening, Cursor.past_past, List.append_nil, List.cons_append, List.nil_append]

end Range

/-- What the characters of names are not. -/
theorem not_mem_of_isAsciiWord {d : Char} (h : isAsciiWord d = true) :
    d ∉ ['<', '>', '=', ')', ';', '\n'] :=
  forall_isAsciiWord (P := fun d => d ∉ ['<', '>', '=', ')', ';', '\n']) (by decide) h

/-- What the characters of numbers are not. -/
theorem tight_of_isNumber {n : List Char} (hn : IsNumber n) :
    ∀ d ∈ n, d ≠ ';' ∧ d ≠ '\n' ∧ isBlank d = false :=
  hn.forall_mem (by decide) fun _ digit =>
    forall_isAsciiWord (P := fun d => d ≠ ';' ∧ d ≠ '\n' ∧ isBlank d = false) (by decide)
      (isAsciiWord_of_isAsciiDigit digit)

/-- There is no comparison before the sign. -/
theorem not_mem_signs {d : Char} (hd : d ∈ ' ' :: (x.name ++ [' '])) : d ∉ ['<', '>', '='] := by
  intro sign
  rcases List.mem_cons.mp hd with rfl | hd
  · revert sign
    decide
  · rcases List.mem_append.mp hd with inName | space
    · exact not_mem_of_isAsciiWord (x.isName.word d inName)
        (List.mem_append_left [')', ';', '\n'] sign)
    · rw [List.mem_singleton.mp space] at sign
      revert sign
      decide

/-- The last clause goes on to the parenthesis. -/
theorem not_mem_lastClause {d : Char} (hd : d ∈ [')', ';', '\n']) :
    d ∉ ' ' :: (x.name ++ x.test.change.toList) := by
  have changes : ∀ d ∈ x.test.change.toList, d ∉ [')', ';', '\n'] := by
    have checked : (x.test.change.toList.all fun d => !([')', ';', '\n'].contains d)) = true := by
      cases x.test <;> decide
    simpa using checked
  intro mem
  rcases List.mem_cons.mp mem with rfl | mem
  · revert hd
    decide
  · rcases List.mem_append.mp mem with inName | inChange
    · exact not_mem_of_isAsciiWord (x.isName.word d inName)
        (List.mem_append_right ['<', '>', '='] hd)
    · exact changes d inChange hd

/-- The rule matches the whole header without the declaration. -/
theorem matchAt_rangePattern :
    rangePattern.matchAt none x.opened = some ⟨x.opened,
      [(3, x.last), (2, x.first), (1, x.name)]⟩ := by
  have first : ∀ d ∈ x.first, d ≠ ';' ∧ isBlank d = false := fun d hd =>
    ⟨(tight_of_isNumber x.isFirst d hd).1, (tight_of_isNumber x.isFirst d hd).2.2⟩
  have tight : x.last.head?.any isBlank = false := by
    obtain ⟨d, n, same⟩ := List.exists_cons_of_ne_nil x.isLast.ne_nil
    rw [same]
    exact (tight_of_isNumber x.isLast d (by rw [same]; exact List.mem_cons_self)).2.2
  have line : '\n' ∉ x.last ++ ' ' :: (x.name ++ x.test.change.toList) := by
    intro mem
    rcases List.mem_append.mp mem with inBound | inClause
    · exact (tight_of_isNumber x.isLast _ inBound).2.1 rfl
    · exact x.not_mem_lastClause (by decide) inClause
  let c := Cursor.start none x.opened
  have whole : c.rest = forWord ++ ([' '] ++ ('(' :: (x.name ++ ([' '] ++ ('=' :: ([' '] ++
      (x.first ++ ([] ++ ';' :: ((' ' :: (x.name ++ [' '])) ++ (x.test.sign.toList ++ ' ' ::
        (x.last ++ (';' :: ((' ' :: (x.name ++ x.test.change.toList)) ++
          [')', ' ', '{']))))))))))))) := by
    simp [c, opened, opening, clauses]
  have begun := ways_rangePattern x.isName x.isFirst.ne_nil first whole
  have behind := Cursor.rest_noting 2 (Cursor.rest_past (w := [' ', '=', ' '])
    (Cursor.rest_noting 1 (Cursor.rest_past (w := opening ++ ['(']) whole)))
  obtain ⟨more, tested⟩ :=
    ways_testParts (List.cons_ne_nil _ _) (fun _ => x.not_mem_signs) (List.cons_ne_nil _ _)
    (x.not_mem_lastClause (by decide)) (x.not_mem_lastClause (by decide)) line tight
      x.isLast.ne_nil behind
  rw [matchAt_eq_ways (by decide), begun, tested]
  simp [c, Cursor.toMatch, Cursor.noting, Cursor.start, Cursor.past, opened, clauses]

/-- The rule puts a range of the two numbers for the whole header. -/
theorem replaceAll_range {f : Match → List Char}
    (hf : f ⟨x.opened, [(3, x.last), (2, x.first), (1, x.name)]⟩ = x.ranged) :
    rangePattern.replaceAll f x.opened = x.ranged := by
  have solid : rangePattern.nullable = false := by decide
  have hit : rangePattern.replaceAll f (x.opened ++ []) =
      f ⟨x.opened, [(3, x.last), (2, x.first), (1, x.name)]⟩ ++ rangePattern.replaceAll f [] :=
    replaceAll_hit (m := ⟨_, _⟩) (by decide) (by decide) solid
      (by rw [List.append_nil]; exact x.matchAt_rangePattern)
  rwa [hf, replaceAll_nil solid, List.append_nil, List.append_nil] at hit

/-! ### Tests for a class -/

def instancePattern : Pattern :=
  seqAll (group 1 (plus true (char (.compl (.ofItems [.single '(', .blank])))) ::
    plus true (char .blank) :: (chars instanceofWord ++ [plus true (char .blank),
      group 2 (plus true (char (.compl (.ofItems [.single ')', .blank]))))]))

/-- The keyword of a test for a class stands by itself. -/
theorem standsIn_of_instancePattern {s : List Char} (h : instancePattern.isMatch s = true) :
    StandsIn instanceofWord s := by
  obtain ⟨u, t, rfl, found⟩ := isMatch_iff.mp h
  obtain ⟨e, mem⟩ := (isSome_matchAt_iff (by decide)).mp found
  obtain ⟨w, r₁, -, h₁, t₁, -, mem⟩ := mem_ways_group_plus_cons mem
  obtain ⟨gap, r₂, full, h₂, t₂, blank, mem⟩ := mem_ways_plus_cons mem
  obtain ⟨r₃, h₃, t₃, mem⟩ := mem_ways_chars_append mem
  obtain ⟨gap', r₄, full', h₄, -, blank', -⟩ := mem_ways_plus_cons mem
  have whole : t = w ++ r₁ := h₁
  refine ⟨u ++ (w ++ gap), gap' ++ r₄, ?_, ?_, ?_⟩
  · rw [whole, t₁.symm.trans h₂, t₂.symm.trans h₃, t₃.symm.trans h₄]
    simp only [List.append_assoc]
  · rcases List.eq_nil_or_concat gap with rfl | ⟨gap, c, rfl⟩
    · exact absurd rfl full
    · rw [List.concat_eq_append] at blank ⊢
      rw [← List.append_assoc, ← List.append_assoc, List.getLast?_concat]
      exact wordless (blank c (by simp))
  · obtain ⟨c, gap', rfl⟩ := List.exists_cons_of_ne_nil full'
    exact wordless (blank' c List.mem_cons_self)

theorem replaceAll_instance (idle : instancePattern.isMatch (alone x.name) = false)
    (f : Match → List Char) : instancePattern.replaceAll f x.declared = x.declared := by
  refine replaceAll_of_not_isMatch (Bool.eq_false_iff.mpr fun found => ?_)
  rcases x.eachWord_declared _ (by decide) (standsIn_of_instancePattern found) with
    named | fixed | digits
  · rw [← named] at idle
    revert idle
    decide +kernel
  · revert fixed
    decide
  · exact absurd (digits 'i' List.mem_cons_self) (by decide)

end HeaderParts

end Polyglot

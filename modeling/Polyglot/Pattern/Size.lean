import Polyglot.Pattern.Form

/-!
The size of a pattern, and the limit on it. A pattern that would need more memory than the limit is
refused. The memory is that of two graphs over the bytes of encoded texts, one read forwards and one
backwards; counts are multiplied out, and sets become trees of byte ranges. The parts are:

* 32 bytes for each node, that is for each byte, test, join, or end of a group;
* 8 bytes more for each way from a node of a set, and for each way of an option or a loop taken
  together, 4 bytes for each way of an alternative.
-/

namespace Polyglot

/-- The bytes of a code point, the first of them first. -/
def encodeUtf8 (n : Nat) : List Nat :=
  if n < 0x80 then [n]
  else if n < 0x800 then [0xC0 + n / 64, 0x80 + n % 64]
  else if n < 0x10000 then [0xE0 + n / 4096, 0x80 + n / 64 % 64, 0x80 + n % 64]
  else [0xF0 + n / 262144, 0x80 + n / 4096 % 64, 0x80 + n / 64 % 64, 0x80 + n % 64]

/-- Cuts a range behind a code point that lies inside it. -/
def cutRange (bound : Nat) (r : Nat × Nat) : List (Nat × Nat) :=
  if r.1 ≤ bound && bound < r.2 then [(r.1, bound), (bound + 1, r.2)] else [r]

/-- Cuts a range where the bytes before the last `width` digits to base 64 change, except between
digits that are all zero or all 63. -/
def alignRange (width : Nat) (r : Nat × Nat) : List (Nat × Nat) :=
  let unit := Nat.pow 64 width
  if r.1 / unit = r.2 / unit then [r]
  else
    let low := if r.1 % unit = 0 then [r] else cutRange (r.1 / unit * unit + unit - 1) r
    low.flatMap fun s => if s.2 % unit = unit - 1 then [s] else cutRange (s.2 / unit * unit - 1) s

/-- The ranges of bytes at each place of the encodings of a range: one list for each shape. -/
def byteRanges (r : Nat × Nat) : List (List (Nat × Nat)) :=
  let lengths :=
    [0x7F, 0x7FF, 0xD7FF, 0xDFFF, 0xFFFF].foldl (fun rs b => rs.flatMap (cutRange b)) [r]
  let scalars := lengths.filter fun s => !(0xD800 ≤ s.1 && s.2 ≤ 0xDFFF)
  let align (s : Nat × Nat) :=
    if s.2 < 0x80 then [s]
    else if s.2 < 0x800 then alignRange 1 s
    else if s.2 < 0x10000 then (alignRange 2 s).flatMap (alignRange 1)
    else ((alignRange 3 s).flatMap (alignRange 2)).flatMap (alignRange 1)
  (scalars.flatMap align).map fun s => (encodeUtf8 s.1).zip (encodeUtf8 s.2)

/-- The shapes of a set that share their first range of bytes stand together: the rests of each
group. -/
def groupByHead : List (List (Nat × Nat)) → List (List (List (Nat × Nat)))
  | [] => []
  | shape :: shapes =>
    match groupByHead shapes, shapes with
    | group :: groups, next :: _ =>
      if shape.head? = next.head? then (shape.tail :: group) :: groups
      else [shape.tail] :: group :: groups
    | groups, _ => [shape.tail] :: groups

/-- The nodes of the tree of the shapes; a node is known by the shapes that follow it. -/
def treeNodes : (depth : Nat) → List (List (Nat × Nat)) → List (List (List (Nat × Nat)))
  | 0, _ => []
  | depth + 1, shapes =>
    let shapes := shapes.filter (!·.isEmpty)
    if shapes.isEmpty then []
    else shapes :: (groupByHead shapes).flatMap (treeNodes depth)

namespace CharSet

def shapes (s : CharSet) : List (List (Nat × Nat)) :=
  s.ranges.flatMap byteRanges

def isAscii (s : CharSet) : Bool :=
  s.ranges.all (·.2 < 0x80)

/-- Equal subtrees are shared. -/
def forwardBytes (s : CharSet) : Nat :=
  if s.isAscii then 64 + 8 * s.ranges.length
  else
    let nodes := (treeNodes 4 s.shapes).eraseDups
    nodes.foldl (fun bytes node => bytes + 32 + 8 * (groupByHead node).length) 32

/-- Equal beginnings are shared. -/
def backwardBytes (s : CharSet) : Nat :=
  if s.isAscii then 64 + 8 * s.ranges.length
  else
    let starts (shape : List (Nat × Nat)) :=
      (List.range shape.length).map fun n => shape.take (n + 1)
    let starts := (s.shapes.flatMap starts).eraseDups
    64 + 32 * starts.length + 4 * s.shapes.length

/-- No fewer than the ranges of a set. -/
def rangesBound : CharSet → Nat
  | none => 0
  | range _ _ => 1
  | blank => 10
  | digit => 71
  | word => 796
  | union a b => a.rangesBound + b.rangesBound
  | inter a b => a.rangesBound + b.rangesBound + 3
  | compl a => a.rangesBound + 1

/-- No less than the size in either direction, and found at once. -/
def roughBytes (s : CharSet) : Nat :=
  4000 + 480 * s.rangesBound

end CharSet

namespace Form

/-- The size of a form, from the sizes of sets and of the ends of groups. -/
def bytes (ofSet : CharSet → Nat) (ofGroup : Nat) : Form → Nat
  | empty => 32
  | text s => 32 * s.foldl (fun bytes c => bytes + c.utf8Size) 0
  | set s => ofSet s
  | look _ => 32
  | seq a b => a.bytes ofSet ofGroup + b.bytes ofSet ofGroup
  | alt a b =>
    (match b with
      | alt _ _ => 4
      | _ => 72) + a.bytes ofSet ofGroup + b.bytes ofSet ofGroup
  | rep min max _ body =>
    let once := body.bytes ofSet ofGroup
    match min, max with
    | 0, some 1 => 72 + once
    | 0, none => (if body.consumes then 40 else 112) + once
    | n, none => n * once + 40
    | n, some m =>
      if m ≤ n then n * once
      else (if n = 0 then 32 else n * once) + 32 + (m - n) * (40 + once)
  | group _ body => ofGroup + body.bytes ofSet ofGroup

/-- The largest size of a pattern. -/
def maxBytes : Nat := 10485760

/-- Whether a pattern is small enough. The way to its first place takes 112 bytes, and its own group
and its end take 96 in the forward direction and 32 in the other. -/
def fits (f : Form) : Bool :=
  208 + f.bytes CharSet.roughBytes 64 ≤ maxBytes ||
    (208 + f.bytes CharSet.forwardBytes 64 ≤ maxBytes &&
      144 + f.bytes CharSet.backwardBytes 0 ≤ maxBytes)

end Form

end Polyglot

/-!
The grammar of a command line on one level: in front of a command, or behind its name. The value of
an option that stands by itself is looked at only when the next option or operand is read, or when
the line is at its end, so a command that follows is heard first.
-/

namespace Polyglot

namespace Command

/-- Why the arguments ask for no work. -/
inductive Stop where
  | usage
  /-- Help is asked for; the page that answers. -/
  | help (page : String)
  | version
  deriving DecidableEq, Repr

/-- The value that an option takes. -/
structure ValueForm where
  /-- How the value is called in the help. -/
  name : String
  /-- Whether the empty text is a value. -/
  mayBeEmpty : Bool := false
  /-- The values there are, if they are limited. -/
  choices : List String := []
  default : Option String := none

def ValueForm.accepts (form : ValueForm) (value : String) : Bool :=
  if form.choices.isEmpty then form.mayBeEmpty || !value.isEmpty else form.choices.contains value

/-- An option is a flag, or it takes a value. -/
structure OptionForm where
  long : String
  short : Option Char := none
  value : Option ValueForm := none
  about : String

/-- What is asked for besides options. -/
structure OperandForm where
  name : String
  about : String

/-- What may stand on one level. -/
structure Grammar where
  /-- The program and, behind its name, the command. -/
  call : String
  about : String
  /-- What the long page of the help says instead. -/
  longAbout : Option String := none
  /-- The options of the program, which stand on every level. -/
  shared : List OptionForm := []
  /-- The options of this level alone. -/
  own : List OptionForm := []
  /-- The commands that may follow, each with what it does. -/
  commands : List (String × String) := []
  operand : Option OperandForm := none

namespace Grammar

def options (g : Grammar) : List OptionForm :=
  g.shared ++ g.own

/-- The program knows its version, a command does not. -/
def hasVersion (g : Grammar) : Bool :=
  !g.commands.isEmpty

end Grammar

/-- The options and operands of one level. -/
structure Parsed where
  values : List (String × String) := []
  operands : List String := []
  /-- An option whose value has not been looked at. -/
  pending : Option (OptionForm × String) := none

namespace Parsed

def value? (p : Parsed) (long : String) : Option String :=
  p.values.lookup long

def isSet (p : Parsed) (long : String) : Bool :=
  (p.value? long).isSome

/-- An option may stand once on a level, and its value must be one that it takes. -/
def add (p : Parsed) (form : OptionForm) (value : String) : Except Stop Parsed :=
  if p.isSet form.long then .error .usage
  else if form.value.any fun v => !v.accepts value then .error .usage
  else .ok { p with values := p.values ++ [(form.long, value)] }

/-- Looks at the value that is pending. -/
def settle (p : Parsed) : Except Stop Parsed :=
  match p.pending with
  | none => .ok p
  | some (form, value) => { p with pending := none }.add form value

end Parsed

/-- What comes of one argument: options are read, or one still waits for its value. -/
abbrev Progress := Parsed × Option OptionForm

namespace Grammar

/-- What `page` answers depends on whether the long form of the option was used. -/
abbrev Pages := (long : Bool) → String

/-- `--name` or `--name=value`. -/
def readLong (g : Grammar) (page : Pages) (p : Parsed) (body : List Char) :
    Except Stop Progress := do
  let p ← p.settle
  let name := String.ofList (body.takeWhile (· != '='))
  let attached := (body.dropWhile (· != '=')).tail?.map String.ofList
  match attached, g.options.find? (·.long == name) with
  | none, none =>
    if name = "help" then .error (.help (page true))
    else if name = "version" && g.hasVersion then .error .version
    else .error .usage
  | some _, none => .error .usage
  | none, some form =>
    if form.value.isSome then .ok (p, some form) else return (← p.add form "", none)
  | some value, some form =>
    if form.value.isSome then return (← p.add form value, none) else .error .usage

/-- Letters behind one dash: flags, and last perhaps an option with its value. -/
def readLetters (g : Grammar) (page : Pages) (p : Parsed) : List Char → Except Stop Progress
  | [] => .ok (p, none)
  | c :: rest =>
    match g.options.find? (·.short == some c) with
    | none =>
      if c = 'h' then .error (.help (page false))
      else if c = 'V' && g.hasVersion then .error .version
      else .error .usage
    | some form =>
      if form.value.isSome then
        if rest.isEmpty then .ok (p, some form)
        else do
          let value := if rest.head? = some '=' then rest.drop 1 else rest
          return (← p.add form (String.ofList value), none)
      else do g.readLetters page (← p.add form "") rest

def readShort (g : Grammar) (page : Pages) (p : Parsed) (letters : List Char) :
    Except Stop Progress := do
  g.readLetters page (← p.settle) letters

def readOperand (g : Grammar) (p : Parsed) (arg : String) : Except Stop Parsed := do
  let p ← p.settle
  if g.operand.isSome && p.operands.isEmpty && !arg.isEmpty then return { p with operands := [arg] }
  else .error .usage

/-- Operands only, behind two dashes. -/
def readOperands (g : Grammar) : Parsed → List String → Except Stop Parsed
  | p, [] => .ok p
  | p, arg :: rest => do g.readOperands (← g.readOperand p arg) rest

/-- Reads arguments up to their end or up to the name of a command, which is given with those
behind it. -/
def read (g : Grammar) (page : Pages) : Parsed → Option OptionForm → List String →
    Except Stop (Parsed × Option (String × List String))
  | p, none, [] => .ok (p, none)
  | _, some _, [] => .error .usage
  | p, waiting, arg :: rest =>
    match waiting, arg.toList with
    | none, ['-', '-'] => do return (← g.readOperands p rest, none)
    | none, '-' :: '-' :: body => do
      let (p, waiting) ← g.readLong page p body
      g.read page p waiting rest
    | none, '-' :: c :: body => do
      let (p, waiting) ← g.readShort page p (c :: body)
      g.read page p waiting rest
    | none, _ =>
      if (g.commands.lookup arg).isSome then .ok (p, some (arg, rest))
      else do g.read page (← g.readOperand p arg) none rest
    | some form, chars =>
      if chars.head? = some '-' && chars.length > 1 then .error .usage
      else g.read page { p with pending := some (form, arg) } none rest

end Grammar

end Command

end Polyglot

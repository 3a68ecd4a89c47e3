import Polyglot.Command.Grammar
import Polyglot.Sort

/-!
Help pages. What stands on a level is listed in columns; a program with a long description also has
a long page, where each option takes several lines.
-/

namespace Polyglot

namespace Command

def padTo (width : Nat) (s : String) : String :=
  s ++ String.ofList (List.replicate (width - s.length) ' ')

/-- Two columns, the first as wide as its widest entry. -/
def columns (rows : List (String × String)) : String :=
  let width := (rows.map (·.1.length)).foldl max 0
  String.join (rows.map fun row => "  " ++ padTo width row.1 ++ "  " ++ row.2 ++ "\n")

namespace OptionForm

/-- The option as it is called, the short name first. -/
def spelling (o : OptionForm) : String :=
  (match o.short with
    | some c => "-" ++ c.toString ++ ", "
    | none => "    ") ++
    "--" ++ o.long ++
    (match o.value with
      | some v => " <" ++ v.name ++ ">"
      | none => "")

/-- The default and the possible values, each in brackets. -/
def notes (o : OptionForm) : List String :=
  match o.value with
  | none => []
  | some v =>
    (v.default.map fun d => "[default: " ++ d ++ "]").toList ++
      if v.choices.isEmpty then [] else ["[possible values: " ++ ", ".intercalate v.choices ++ "]"]

/-- What options of one rank are listed by. -/
def listKey (o : OptionForm) : String :=
  match o.short with
  | some c => c.toLower.toString ++ (if c.isLower then "0" else "1")
  | none => o.long

end OptionForm

namespace Grammar

/-- The options as they are listed: the first of the program and of the level, by their names, then
the second, and so on. -/
def listed (g : Grammar) : List OptionForm :=
  let ranked := g.shared.zipIdx ++ g.own.zipIdx
  (sortBy (fun a b => a.2 < b.2 || (a.2 = b.2 && textLe a.1.listKey b.1.listKey)) ranked).map (·.1)

/-- A long page exists where there is a long description. -/
def hasLongPage (g : Grammar) : Bool :=
  g.longAbout.isSome

def helpOption (g : Grammar) (long : Bool) : OptionForm :=
  { long := "help", short := some 'h'
    about := if !g.hasLongPage then "Print help"
      else if long then "Print help (see a summary with '-h')"
      else "Print help (see more with '--help')" }

def versionOption : OptionForm :=
  { long := "version", short := some 'V', about := "Print version" }

/-- One option on a long page. -/
def longEntry (o : OptionForm) : String :=
  "  " ++ o.spelling ++ "\n          " ++ o.about ++ "\n" ++
    String.join (o.notes.map fun note => "          \n          " ++ note ++ "\n")

def usage (g : Grammar) : String :=
  "Usage: " ++ g.call ++ " [OPTIONS]" ++
    (if g.commands.isEmpty then "" else " <COMMAND>") ++
    (match g.operand with
      | some o => " <" ++ o.name ++ ">"
      | none => "") ++ "\n"

/-- The page that is printed when help is asked for. -/
def page (g : Grammar) (long : Bool) : String :=
  let long := long && g.hasLongPage
  let options := g.listed ++ [g.helpOption long] ++ if g.hasVersion then [versionOption] else []
  let part (title body : String) := "\n" ++ title ++ ":\n" ++ body
  (if long then g.longAbout.getD g.about else g.about) ++ "\n\n" ++ g.usage ++
    (if g.commands.isEmpty then "" else part "Commands" (columns g.commands)) ++
    (match g.operand with
      | some o => part "Arguments" (columns [("<" ++ o.name ++ ">", o.about)])
      | none => "") ++
    part "Options"
      (if long then "\n".intercalate (options.map longEntry)
      else columns (options.map fun o => (o.spelling, " ".intercalate (o.about :: o.notes))))

end Grammar

end Command

end Polyglot

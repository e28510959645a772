import AdOps.Bot

/-!
# The report of a run

What the program prints for a message: how it was understood, the chunks of the response, and how
long it took. With colours switched on, each piece of text is painted by the role it plays.
-/

namespace AdOps.Cli

inductive Paint where
  | heading
  | section
  | platform
  | verb
  | value
  | timing
  | failure
  | muted
deriving DecidableEq

namespace Paint

/-- The parameters of the terminal sequence for a role. -/
def code : Paint → String
  | .heading => "1;36"
  | .section => "90"
  | .platform => "34"
  | .verb => "1;32"
  | .value => "33"
  | .timing => "32"
  | .failure => "1;31"
  | .muted => "2"

def apply (p : Paint) (color : Bool) (s : String) : String :=
  if color then "\x1b[" ++ p.code ++ "m" ++ s ++ "\x1b[0m" else s

end Paint

def sectionLine (color : Bool) (title : String) : String :=
  Paint.section.apply color ("━━━ " ++ title ++ " ━━━")

/-- Whether "no filter", a switch or any other value: how an argument is shown. -/
def argText (color : Bool) : Arg → String
  | .all => Paint.muted.apply color "(all)"
  | .switch => Paint.value.apply color "on"
  | a => Paint.value.apply color a.display

def commandLines (color : Bool) : Option Command → List String
  | none => [Paint.muted.apply color "  Not resolved"]
  | some c =>
    ("  " ++ " ".intercalate [Paint.platform.apply color c.platform.name,
        Paint.verb.apply color c.verb.name, Paint.muted.apply color "│ grammar:", c.grammar])
      :: c.args.entries.map fun e =>
        "      " ++ Paint.muted.apply color (e.1 ++ ":") ++ " " ++ argText color e.2

def chunkLines (color : Bool) (index : Nat) (chunk : String) : List String :=
  ("  " ++ Paint.muted.apply color ("[" ++ Number.integerText (Int.ofNat index) ++ "] "
      ++ Number.integerText (Int.ofNat chunk.length) ++ " chars"))
    :: (Text.lines chunk).map ("      " ++ ·)

def chunksLines (color : Bool) (chunks : List String) : List String :=
  chunks.zipIdx.flatMap fun (chunk, index) => chunkLines color index chunk

/-- The lines of a report; `timing` is the line that tells how long the run took. -/
def reportLines (color : Bool) (timing : String) (r : Report) : List String :=
  ["", Paint.heading.apply color ("⚙  Command: \"" ++ Text.trim r.message ++ "\""),
    "", sectionLine color "Parsed"]
  ++ commandLines color r.command
  ++ ["", sectionLine color "Response"]
  ++ chunksLines color r.response.body
  ++ (if r.response.issues.isEmpty then []
      else ["", sectionLine color "Errors"] ++ chunksLines color r.response.issues)
  ++ (match r.failure with
      | some f => ["", Paint.failure.apply color ("Failed: " ++ f.kind)]
      | none => [])
  ++ ["", sectionLine color "Timing", timing, ""]

end AdOps.Cli

import AdOps.CommandLine.Head

/-!
# Flags given on a line

Every flag is looked for over the whole line, and may be given any number of arguments. What a
repeated flag means is up to the policy; a flag that the command does not accept is passed over.
-/

namespace AdOps

def FlagPolicy.choose? (policy : FlagPolicy) (given : List Arg) : Option Arg :=
  match policy with
  | .firstWins => given.head?
  | .lastWins | .reject => given.getLast?

def Flag.repeated (f : Flag) (count : Nat) : Failure :=
  .invalidFlag f.name ("repeated " ++ Number.integerText (Int.ofNat count) ++ " times")

def Flag.collect (policy : FlagPolicy) (given : Flag → List Arg) (args : Arguments) (f : Flag) :
    Except Failure Arguments :=
  if policy = .reject ∧ 1 < (given f).length then .error (f.repeated (given f).length)
  else match policy.choose? (given f) with
    | some a => .ok (args.insert f.name a)
    | none => .ok args

def Flag.collectAll (allowed : List Flag) (policy : FlagPolicy) (given : Flag → List Arg) :
    Except Failure Arguments :=
  allowed.foldlM (Flag.collect policy given) NameMap.empty

def Grammar.flags (g : Grammar) : List Flag :=
  Flag.all.filter fun f => g.windowed || !f.isWindow

end AdOps

import FlowArtifact.Text.Split

/-!
# Arguments of commands

An argument is an option or a word. An option has a long name behind two dashes and mostly a letter
behind one dash; several letters may stand together. The value of an option follows it behind `=`,
as the next argument, or right behind the letter. Every option is given at most once, and after
`--` all arguments are words.
-/

namespace FlowArtifact

/-- Why the arguments give no command. -/
inductive Halt where
  | refused
  | help
  | version
deriving DecidableEq

inductive Purpose where
  /-- The option is there or not. -/
  | mark
  /-- The option has a value, of a form that is tested. -/
  | setting (accepts : String → Bool)
  | stop (halt : Halt)

structure Flag where
  long : String
  short : Option Char
  purpose : Purpose

/-- The options and the number of words that a command can have. -/
structure Signature where
  flags : List Flag
  words : Nat

inductive Stage where
  | anything
  | valueOf (flag : Flag)
  | wordsOnly

structure Given where
  options : List (String × String) := []
  words : List String := []
  stage : Stage := .anything

namespace Given

def has (g : Given) (long : String) : Bool := (g.options.lookup long).isSome

def value? (g : Given) (long : String) : Option String := g.options.lookup long

/-- Notes an option that was not given before. -/
def note (g : Given) (f : Flag) (value : String) : Except Halt Given :=
  if g.has f.long then .error .refused
  else .ok { g with options := g.options ++ [(f.long, value)], stage := .anything }

def option (g : Given) (f : Flag) (attached : Option String) : Except Halt Given :=
  match f.purpose, attached with
  | .mark, none => g.note f ""
  | .stop halt, none => .error halt
  | .mark, some _ | .stop _, some _ => .error .refused
  | .setting _, none => .ok { g with stage := .valueOf f }
  | .setting accepts, some value => if accepts value then g.note f value else .error .refused

end Given

/-- The argument is no word unless only words are left: a dash with something behind it. -/
def isDashed (arg : String) : Bool :=
  match arg.toList with
  | '-' :: _ :: _ => true
  | _ => false

namespace Signature

def attached (text : List Char) : String × Option String :=
  match text.span (· ≠ '=') with
  | (name, []) => (String.ofList name, none)
  | (name, _ :: value) => (String.ofList name, some (String.ofList value))

def long (sig : Signature) (g : Given) (text : List Char) : Except Halt Given :=
  let (name, value) := attached text
  match sig.flags.find? (·.long = name) with
  | some f => g.option f value
  | none => .error .refused

def letters (sig : Signature) (g : Given) : List Char → Except Halt Given
  | [] => .ok g
  | c :: rest =>
    match sig.flags.find? (·.short = some c) with
    | none => .error .refused
    | some f =>
      match f.purpose, rest with
      | .setting _, '=' :: value => g.option f (some (String.ofList value))
      | .setting _, [] => g.option f none
      | .setting _, value => g.option f (some (String.ofList value))
      | _, _ => do sig.letters (← g.option f none) rest

def word (sig : Signature) (g : Given) (arg : String) : Except Halt Given :=
  if g.words.length < sig.words then .ok { g with words := g.words ++ [arg] }
  else .error .refused

def argument (sig : Signature) (g : Given) (arg : String) : Except Halt Given :=
  match g.stage with
  | .wordsOnly => sig.word g arg
  | .valueOf f => if isDashed arg then .error .refused else g.option f (some arg)
  | .anything =>
    match arg.toList with
    | ['-', '-'] => .ok { g with stage := .wordsOnly }
    | '-' :: '-' :: text => sig.long g text
    | '-' :: c :: rest => sig.letters g (c :: rest)
    | _ => sig.word g arg

def read (sig : Signature) (args : List String) : Except Halt Given := do
  let g ← args.foldlM sig.argument {}
  match g.stage with
  | .valueOf _ => .error .refused
  | _ => .ok g

end Signature

end FlowArtifact

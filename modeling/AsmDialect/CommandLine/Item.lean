import AsmDialect.Spelled
/-!
# Items of an argument list

A command is given a list of arguments, and its flags may stand anywhere in it. A flag has one or
two dashes before its name, and its value after an equals sign or as the next argument.
`Item.ofArguments` takes the list apart from left to right; whether values are any good is not its
concern.
-/

namespace AsmDialect.CommandLine

/-- The flags of the command. -/
inductive Flag where
  /-- The file to read. -/
  | inputFile
  /-- The form of the output. -/
  | outputFormat
  /-- The number of bytes asked for in a read. -/
  | blockSize
deriving DecidableEq, Repr

instance : Spelled Flag where
  all := [.inputFile, .outputFormat, .blockSize]
  spelling
    | .inputFile => "isaguess_input_file"
    | .outputFormat => "isaguess_output_format"
    | .blockSize => "isaguess_read_block_size"
  mem_all f := by cases f <;> decide
  spelling_injective a b := by cases a <;> cases b <;> decide

/-- What a single argument looks like. -/
inductive Shape where
  /-- Two dashes alone, after which all arguments are positional. -/
  | terminator
  | positional
  /-- A name after one or two dashes, and a value if there is an equals sign. -/
  | named (name : String) (value? : Option String)
deriving DecidableEq, Repr

/-- An argument without the one or two dashes before it. -/
def dashed? : List Char → Option (List Char)
  | '-' :: '-' :: cs => some cs
  | '-' :: cs => some cs
  | _ => none

/-- The shape of an argument. What has no name between its dashes and the first equals sign, or its
end, is positional. -/
def Shape.of (arg : String) : Shape :=
  if arg = "--" then .terminator
  else
    match dashed? arg.toList with
    | none => .positional
    | some body =>
      match body.takeWhile (· != '='), body.dropWhile (· != '=') with
      | [], _ => .positional
      | name, [] => .named (String.ofList name) none
      | name, _ :: value => .named (String.ofList name) (some (String.ofList value))

/-- A part of an argument list. -/
inductive Item where
  /-- A flag of the command with its value. -/
  | setting (f : Flag) (value : String)
  /-- A flag of the command that no value follows, as it was written. -/
  | missing (arg : String)
  /-- The name of a flag the command does not have. -/
  | unknown (name : String)
  | positional (arg : String)
deriving DecidableEq, Repr

/-- Takes an argument list apart. A flag without an equals sign takes the next argument as its value
whatever it looks like, but only a flag of the command does so. -/
def Item.ofArguments : List String → List Item
  | [] => []
  | arg :: rest =>
    match Shape.of arg with
    | .terminator => rest.map positional
    | .positional => positional arg :: ofArguments rest
    | .named name value? =>
      match ofSpelling? name, value? with
      | none, _ => unknown name :: ofArguments rest
      | some f, some value => setting f value :: ofArguments rest
      | some f, none =>
        match rest with
        | [] => [missing arg]
        | value :: rest => setting f value :: ofArguments rest

end AsmDialect.CommandLine

import SchemaSampler.Config.Toml
import SchemaSampler.Json.Reader
import SchemaSampler.Sampler

/-!
# The command line

`Request.parse` reads the arguments, and `SampleRequest.run` carries out the `sample` command
on the texts of its files. Work is done in the order schema, configuration, random keys,
compilation, validator, samples; samples before an error stay printed.
-/

namespace SchemaSampler

namespace CommandLine

/-- The arguments of the `sample` command. -/
structure SampleRequest where
  schema : String
  count : Nat := 1
  seed : Option Nat := none
  config : Option String := none
  validate : Bool := false
  pretty : Bool := false
  randomKeys : Bool := false

inductive Request where
  | sample (request : SampleRequest)
  | providers
  | version
  | help
  /-- The arguments are not understood. -/
  | badUsage

/-! ## Reading arguments -/

/-- The options of the `sample` command as far as they have been read. -/
structure Given where
  schema : Option String := none
  count : Option Nat := none
  seed : Option Nat := none
  config : Option String := none
  validate : Bool := false
  pretty : Bool := false
  randomKeys : Bool := false
  logJson : Bool := false

inductive Parsed (α : Type) where
  | value (result : α)
  | help
  | wrong

/-- A natural number of 64 bits, perhaps with a plus sign. -/
def number? (text : String) : Option Nat :=
  let digits := match text.toList with
    | '+' :: rest => rest
    | rest => rest
  let value := Digits.number 0 digits
  if !digits.isEmpty && digits.all Char.isDigit && value < 0x10000000000000000 then some value else none

/-- Sets an option once. -/
def setOnce {α : Type} (current : Option α) (value : Option α) : Option (Option α) :=
  match current, value with
  | none, some value => some (some value)
  | _, _ => none

/-- A path is not empty. -/
def path? (text : String) : Option String := if text.isEmpty then none else some text

def Given.set? (given : Given) (name value : String) : Option Given :=
  match name with
  | "--schema" => (setOnce given.schema (path? value)).map fun schema => { given with schema }
  | "--count" => (setOnce given.count (number? value)).map fun count => { given with count }
  | "--seed" => (setOnce given.seed (number? value)).map fun seed => { given with seed }
  | "--config" => (setOnce given.config (path? value)).map fun config => { given with config }
  | _ => none

/-- Turns a flag on, which may be done once. -/
def Given.turnOn? (given : Given) (name : String) : Option Given :=
  match name with
  | "--validate" => if given.validate then none else some { given with validate := true }
  | "--pretty" => if given.pretty then none else some { given with pretty := true }
  | "--random-keys" => if given.randomKeys then none else some { given with randomKeys := true }
  | "--log-json" => if given.logJson then none else some { given with logJson := true }
  | _ => none

def valueOptions : List String := ["--schema", "--count", "--seed", "--config"]

/-- A value does not begin with a dash, unless it is only a dash. -/
def isValue (text : String) : Bool := text == "-" || text.toList.head? != some '-'

/-- The name and the value of an argument with an equals sign. -/
def splitEquals (text : String) : Option (String × String) :=
  let chars := text.toList
  if chars.contains '=' then
    some (String.ofList (chars.takeWhile fun c => c != '='),
      String.ofList ((chars.dropWhile fun c => c != '=').drop 1))
  else none

/-- Reads the arguments of the `sample` command in order; a double dash may end them. -/
def readSample (given : Given) : List String → Parsed Given
  | [] => .value given
  | arg :: rest =>
    if arg == "--help" || arg == "-h" then .help
    else if arg == "--" && rest.isEmpty then .value given
    else if valueOptions.contains arg then
      match rest with
      | value :: rest =>
        if isValue value then
          match given.set? arg value with
          | some given => readSample given rest
          | none => .wrong
        else .wrong
      | [] => .wrong
    else
      match splitEquals arg with
      | some (name, value) =>
        match given.set? name value with
        | some given => readSample given rest
        | none => .wrong
      | none =>
        match given.turnOn? arg with
        | some given => readSample given rest
        | none => .wrong

/-- The `sample` command needs a schema. -/
def Given.request (given : Given) : Request :=
  match given.schema with
  | some schema => .sample {
      schema, count := given.count.getD 1, seed := given.seed, config := given.config
      validate := given.validate, pretty := given.pretty, randomKeys := given.randomKeys }
  | none => .badUsage

/-- The arguments of the `providers` command. -/
def readProviders (logged : Bool) : List String → Request
  | [] => .providers
  | arg :: rest =>
    if arg == "--help" || arg == "-h" then .help
    else if arg == "--" && rest.isEmpty then .providers
    else if arg == "--log-json" && !logged then readProviders true rest
    else .badUsage

/-- Reads all arguments. -/
def Request.parse (logged : Bool) : List String → Request
  | [] => .badUsage
  | "--log-json" :: rest => if logged then .badUsage else Request.parse true rest
  | "--version" :: _ => .version
  | "-V" :: _ => .version
  | "--help" :: _ => .help
  | "-h" :: _ => .help
  | "help" :: _ => .help
  | "sample" :: rest =>
    match readSample {} rest with
    | .value given => given.request
    | .help => .help
    | .wrong => .badUsage
  | "providers" :: rest => readProviders false rest
  | _ :: _ => .badUsage

/-! ## Running -/

inductive RunError where
  | io (path : String)
  | json
  | config
  | schema
  | generation (error : SampleError)
  | invalidSample (index : Nat) (errors : String)

def RunError.message : RunError → String
  | io path => "failed to read " ++ path
  | json => "invalid json"
  | config => "invalid configuration"
  | schema => "schema error"
  | generation error => "generation error: " ++ error.message
  | invalidSample index errors =>
    "sample " ++ toString index ++ " does not match the schema: " ++ errors

/-- What a run prints, and the error that ends it. -/
structure Outcome where
  output : String := ""
  error : Option RunError := none

/-- A line of output, with the lines of a run that goes on. -/
def Outcome.after (line : String) (outcome : Outcome) : Outcome :=
  { outcome with output := line ++ outcome.output }

/-- The text of a sample. -/
def sampleText (pretty : Bool) (sample : Json) : String :=
  if pretty then sample.pretty else sample.compact

/-- The errors of a sample, none without a validator. -/
def sampleErrors (validator : Option Validator) (sample : Json) : List String :=
  match validator with
  | some validator => validator.errors sample
  | none => []

/-- Prints samples until their number is reached, one is not valid, or a draw fails. -/
def printSamples (sampler : Sampler) (validator : Option Validator) (pretty : Bool) :
    (remaining index : Nat) → Source → Outcome
  | 0, _, _ => {}
  | remaining + 1, index, source =>
    match sampler.draw source with
    | (.error error, _) => { error := some (.generation error) }
    | (.ok sample, source) =>
      match sampleErrors validator sample with
      | [] => (printSamples sampler validator pretty remaining (index + 1) source).after
        (sampleText pretty sample ++ "\n")
      | errors => { error := some (.invalidSample index ("; ".intercalate errors)) }

namespace SampleRequest

/-- The validator of a run that asks for one. -/
def validator (request : SampleRequest) (schema : Json) : Except RunError (Option Validator) :=
  if request.validate then
    match Validator.ofSchema? schema with
    | some validator => .ok (some validator)
    | none => .error .schema
  else .ok none

/-- Samples a schema under options. -/
def sampleSchema (request : SampleRequest) (schema : Json) (options : Options) (source : Source) :
    Outcome :=
  let (keys, source) :=
    if request.randomKeys then SyntheticKeys.random source else (options.keys, source)
  match Sampler.compileHoisted schema { options with keys } [] with
  | .error error => { error := some (.generation error) }
  | .ok sampler =>
    match request.validator schema with
    | .error error => { error := some error }
    | .ok validator => printSamples sampler validator request.pretty request.count 0 source

/-- The options of a run; `files` gives the text of a path. -/
def options (request : SampleRequest) (files : String → Option String) :
    Except RunError Options :=
  match request.config with
  | none => .ok {}
  | some path =>
    match files path with
    | none => .error (.io path)
    | some text =>
      match (Toml.read? text).bind Options.read? with
      | some options => .ok options
      | none => .error .config

/-- The `sample` command; `entropy` is the seed where none is given. -/
def run (request : SampleRequest) (files : String → Option String) (entropy : Nat) : Outcome :=
  match files request.schema with
  | none => { error := some (.io request.schema) }
  | some text =>
    match Json.read? text with
    | none => { error := some .json }
    | some schema =>
      match request.options files with
      | .error error => { error := some error }
      | .ok options =>
        let seed := request.seed.getD entropy
        request.sampleSchema schema options (Source.ofSeed (UInt64.ofNat seed))

end SampleRequest

def versionText : String := "jsonalchemy 0.1.0\n"

def helpText : String :=
  "Random values from JSON Schema\n\n" ++
  "Usage: jsonalchemy [OPTIONS] <COMMAND>\n\n" ++
  "Commands:\n" ++
  "  sample     Draw samples from a schema file\n" ++
  "  providers  List the supported faker providers\n" ++
  "  help       Print this message or the help of the given subcommand(s)\n\n" ++
  "Options:\n" ++
  "      --log-json  Emit logs as JSON lines on stderr\n" ++
  "  -h, --help      Print help\n" ++
  "  -V, --version   Print version\n"

/-- One provider a line. -/
def providersText : String := String.join (Provider.all.map fun provider => provider.name ++ "\n")

/-- What the program prints, its error, and its exit code. -/
structure Exit where
  outcome : Outcome := {}
  code : Nat := 0

def Request.run (request : Request) (files : String → Option String) (entropy : Nat) : Exit :=
  match request with
  | .sample request =>
    let outcome := request.run files entropy
    { outcome, code := if outcome.error.isSome then 1 else 0 }
  | .providers => { outcome := { output := providersText } }
  | .version => { outcome := { output := versionText } }
  | .help => { outcome := { output := helpText } }
  | .badUsage => { code := 2 }

end CommandLine

end SchemaSampler

import SchemaSampler.Catalog.Words
import SchemaSampler.Generator.Basic
import SchemaSampler.Options

/-!
# Catalogs of plausible strings

A provider draws strings of one kind. A catalog is drawn once, from a source of its own: the
distinct values among a number of draws, in the order in which they first came. So a larger
catalog begins with a smaller one of the same seed.
-/

namespace SchemaSampler

/-- A named kind of strings. -/
structure Provider where
  name : String
  draw : Random String

namespace Provider

/-! ## Building blocks -/

def pick (items : Array String) : Random String := do
  let item ← Random.choose items
  pure (item.getD "")

/-- A number from `low` up to but without `high`. -/
def below (low high : Nat) : Random Nat := Random.size low (high - 1)

def digit (low : Nat) : Random Char := do
  let value ← below low 10
  pure (Nat.digitChar value)

/-- Fills a template: `#` is a digit and `^` a digit other than zero. -/
def fillChars : List Char → Random (List Char)
  | [] => pure []
  | c :: rest => do
    let filled ← match c with
      | '#' => digit 0
      | '^' => digit 1
      | c => pure c
    let others ← fillChars rest
    pure (filled :: others)

def fill (template : String) : Random String := do
  let filled ← fillChars template.toList
  pure (String.ofList filled)

def pickFilled (templates : Array String) : Random String := do
  let template ← pick templates
  fill template

/-- The strings of several draws. -/
def several (draw : Random String) : Nat → Random (List String)
  | 0 => pure []
  | count + 1 => do
    let text ← draw
    let texts ← several draw count
    pure (text :: texts)

/-- Draws joined by a separator. -/
def joined (separator : String) (draw : Random String) (count : Nat) : Random String := do
  let texts ← several draw count
  pure (separator.intercalate texts)

/-- Two draws with a text between them. -/
def pair (first : Random String) (separator : String) (second : Random String) :
    Random String := do
  let left ← first
  let right ← second
  pure (left ++ separator ++ right)

/-! ## Addresses of machines -/

/-- The low bits of a word. -/
def lowBits (modulus : Nat) : Random Nat := do
  let word ← Random.word32
  pure (word.toNat % modulus)

def decimalByte : Random String := do
  let byte ← lowBits 256
  pure (toString byte)

def upperHex (value : Nat) : String := (String.ofList (Nat.toDigits 16 value)).toUpper

def hexByte : Random String := do
  let byte ← lowBits 256
  pure ((if byte < 16 then "0" else "") ++ upperHex byte)

def hexGroup : Random String := do
  let group ← lowBits 65536
  pure (upperHex group)

/-! ## Texts -/

def passwordChars : Array String :=
  let chars := "0123456789ABCDEFGHIJKLMNOPQRSTUVWXYZabcdefghijklmnopqrstuvwxyz".toList
  (chars.map Char.toString).toArray

def password : Random String := do
  let length ← below 8 17
  joined "" (pick passwordChars) length

def fillerWord : Random String := pick Words.filler

def fillerWords : Random String := do
  let count ← below 2 6
  joined " " fillerWord count

def sentence : Random String := do
  let count ← below 4 10
  let words ← joined " " fillerWord count
  pure (words ++ ".")

def paragraph : Random String := do
  let count ← below 2 5
  joined "\n" sentence count

def fullName : Random String := pair (pick Words.firstNames) " " (pick Words.lastNames)

/-- A name in lower case with two digits. -/
def userName : Random String := do
  let name ← pick Words.firstNames
  let digits ← fill "##"
  pure (name.toLower ++ digits)

/-- A verb, an adjective and a noun. -/
def slogan : Random String :=
  pair (pick Words.verbs) " " (pair (pick Words.adjectives) " " (pick Words.nouns))

/-! ## The providers -/

/-- All providers in the order of their names. -/
def all : List Provider :=
  [⟨"address.buildingNumber", pickFilled Words.numbers⟩,
    ⟨"address.city", pick Words.cities⟩,
    ⟨"address.cityPrefix", pick Words.cityPrefixes⟩,
    ⟨"address.country", pick Words.countries⟩,
    ⟨"address.countryCode", pick Words.countryCodes⟩,
    ⟨"address.secondaryAddress", pickFilled Words.units⟩,
    ⟨"address.state", pick Words.states⟩,
    ⟨"address.stateAbbr", pick Words.stateCodes⟩,
    ⟨"address.streetName", pair (pick Words.lastNames) " " (pick Words.streetSuffixes)⟩,
    ⟨"address.streetSuffix", pick Words.streetSuffixes⟩,
    ⟨"address.zipCode", pickFilled Words.numbers⟩,
    ⟨"company.bs", slogan⟩,
    ⟨"company.buzzword", pick Words.adjectives⟩,
    ⟨"company.companyName", pair (pick Words.lastNames) " " (pick Words.companyForms)⟩,
    ⟨"company.industry", pick Words.industries⟩,
    ⟨"finance.currencyCode", pick Words.currencyCodes⟩,
    ⟨"finance.currencyName", pick Words.currencyNames⟩,
    ⟨"internet.domainSuffix", pick Words.domainSuffixes⟩,
    ⟨"internet.email", pair userName "@" (pick Words.mailDomains)⟩,
    ⟨"internet.exampleEmail", pair userName "@" (pick Words.exampleDomains)⟩,
    ⟨"internet.ip", joined "." decimalByte 4⟩,
    ⟨"internet.ipv6", joined ":" hexGroup 8⟩,
    ⟨"internet.mac", joined ":" hexByte 6⟩,
    ⟨"internet.password", password⟩,
    ⟨"internet.userAgent", pickFilled Words.browsers⟩,
    ⟨"internet.userName", userName⟩,
    ⟨"lorem.paragraph", paragraph⟩,
    ⟨"lorem.sentence", sentence⟩,
    ⟨"lorem.word", fillerWord⟩,
    ⟨"lorem.words", fillerWords⟩,
    ⟨"name.findName", fullName⟩,
    ⟨"name.firstName", pick Words.firstNames⟩,
    ⟨"name.fullName", fullName⟩,
    ⟨"name.jobTitle", pair (pick Words.seniorities) " " (pick Words.professions)⟩,
    ⟨"name.lastName", pick Words.lastNames⟩,
    ⟨"name.prefix", pick Words.titles⟩,
    ⟨"name.suffix", pick Words.nameSuffixes⟩,
    ⟨"name.title", pick Words.titles⟩,
    ⟨"phone.phoneNumber", pickFilled Words.phones⟩,
    ⟨"random.uuid", Random.uuid⟩]

/-- The provider of a name among some. -/
def findIn? (providers : List Provider) (name : String) : Option Provider :=
  providers.find? fun provider => provider.name == name

def find? (name : String) : Option Provider := findIn? all name

def ofNameIn (providers : List Provider) (name : String) : Except InvalidReason Provider :=
  match findIn? providers name with
  | some provider => .ok provider
  | none => .error (.unsupportedProvider name)

/-- The provider of a name. -/
def ofName (name : String) : Except InvalidReason Provider := ofNameIn all name

end Provider

namespace Catalog

/-- Draws a number of values and keeps the ones that are new, in reverse. -/
def distinctDraws (draw : Random String) : (count : Nat) → List String → Random (List String)
  | 0, values => pure values
  | count + 1, values => do
    let value ← draw
    distinctDraws draw count (if values.contains value then values else value :: values)

/-- The catalog of one of some providers, from a number of draws of a seeded source. -/
def materializeFrom (providers : List Provider) (name : String) (size : Nat) (seed : UInt64) :
    Except InvalidReason (List String) := do
  let provider ← Provider.ofNameIn providers name
  if size = 0 then .error (.emptyCatalog name)
  else pure ((distinctDraws provider.draw size []) (Source.ofSeed seed)).1.reverse

/-- The catalog of a provider. -/
def materialize (name : String) (size : Nat) (seed : UInt64) :
    Except InvalidReason (List String) := materializeFrom Provider.all name size seed

/-- Mixes a name into a seed, byte by byte. -/
def seedOf (seed : UInt64) (name : String) : UInt64 :=
  name.toUTF8.toList.foldl
    (fun hash byte => (hash ^^^ byte.toUInt64) * 0x100000001B3) (seed ^^^ 0xCBF29CE484222325)

end Catalog

/-- A choice among the values of a catalog. -/
def Generator.catalogOf (name : String) (options : Options) : Except InvalidReason Generator := do
  let seed := Catalog.seedOf (UInt64.ofNat options.catalogSeed) name
  let values ← Catalog.materialize name options.limits.catalogSize seed
  enumerationOf "faker.catalog" (values.map Json.str)

end SchemaSampler

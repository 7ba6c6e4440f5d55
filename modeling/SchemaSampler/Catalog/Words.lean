/-!
# Word lists of the catalogs
-/

namespace SchemaSampler

namespace Words

/-- The words of a text, in order and with repetitions. -/
def ofText (text : String) : Array String :=
  ((text.splitOn " ").filter fun word => !word.isEmpty).toArray

/-- The words of filler text. -/
def filler : Array String := ofText <|
  "alias consequatur aut perferendis sit voluptatem accusantium doloremque aperiam eaque ipsa " ++
  "quae ab illo inventore veritatis et quasi architecto beatae vitae dicta sunt explicabo " ++
  "aspernatur aut odit aut fugit sed quia consequuntur magni dolores eos qui ratione " ++
  "voluptatem sequi nesciunt neque dolorem ipsum quia dolor sit amet consectetur adipisci " ++
  "velit sed quia non numquam eius modi tempora incidunt ut labore et dolore magnam aliquam " ++
  "quaerat voluptatem ut enim ad minima veniam quis nostrum exercitationem ullam corporis " ++
  "nemo enim ipsam voluptatem quia voluptas sit suscipit laboriosam nisi ut aliquid ex ea " ++
  "commodi consequatur quis autem vel eum iure reprehenderit qui in ea voluptate velit esse " ++
  "quam nihil molestiae et iusto odio dignissimos ducimus qui blanditiis praesentium " ++
  "laudantium totam rem voluptatum deleniti atque corrupti quos dolores et quas molestias " ++
  "excepturi sint occaecati cupiditate non provident sed ut perspiciatis unde omnis iste " ++
  "natus error similique sunt in culpa qui officia deserunt mollitia animi id est laborum et " ++
  "dolorum fuga et harum quidem rerum facilis est et expedita distinctio nam libero tempore " ++
  "cum soluta nobis est eligendi optio cumque nihil impedit quo porro quisquam est qui minus " ++
  "id quod maxime placeat facere possimus omnis voluptas assumenda est omnis dolor " ++
  "repellendus temporibus autem quibusdam et aut consequatur vel illum qui dolorem eum fugiat " ++
  "quo voluptas nulla pariatur at vero eos et accusamus officiis debitis aut rerum " ++
  "necessitatibus saepe eveniet ut et voluptates repudiandae sint et molestiae non recusandae " ++
  "itaque earum rerum hic tenetur a sapiente delectus ut aut reiciendis voluptatibus maiores " ++
  "doloribus asperiores repellat"

def titles : Array String := #["Mr.", "Mrs.", "Ms.", "Miss", "Dr."]

def nameSuffixes : Array String :=
  #["Jr.", "Sr.", "I", "II", "III", "IV", "V", "MD", "DDS", "PhD", "DVM"]

def domainSuffixes : Array String := #["com", "biz", "info", "name", "net", "org", "io", "co"]

/-- Templates of house numbers and postal codes. -/
def numbers : Array String := #["#####", "####", "###"]

/-- Templates of telephone numbers. -/
def phones : Array String :=
  #["(^##) ###-#### x###", "(^##) ###-#### x####", "(^##) ###-#### x#####", "(^##) ###-####",
    "1-^##-###-#### x###", "1-^##-###-#### x####", "1-^##-###-#### x#####", "1-^##-###-####",
    "^##-###-#### x###", "^##-###-#### x####", "^##-###-#### x#####", "^##-###-####",
    "^##.###.#### x###", "^##.###.#### x####", "^##.###.#### x#####", "^##.###.####"]

/-- Templates of parts of buildings. -/
def units : Array String := #["Apt. ###", "Suite ###", "Floor ##"]

def firstNames : Array String :=
  #["Ada", "Amelia", "Bruno", "Clara", "Diego", "Elena", "Felix", "Greta", "Hugo", "Iris",
    "Jonas", "Karin", "Leon", "Mira", "Nils", "Olga", "Pablo", "Rosa", "Simon", "Tessa"]

def lastNames : Array String :=
  #["Adler", "Baker", "Castro", "Dietrich", "Ekberg", "Fischer", "Garcia", "Hansen", "Ivanova",
    "Jensen", "Keller", "Lindgren", "Moreau", "Novak", "Olsen", "Petrov", "Rossi", "Schmidt"]

def cities : Array String :=
  #["Ashford", "Bridgeton", "Clearwater", "Dunmore", "Eastvale", "Fairview", "Glenwood",
    "Harborview", "Kingsbury", "Lakeside", "Millbrook", "Northfield"]

def cityPrefixes : Array String := #["North", "East", "West", "South", "New", "Lake", "Port"]

def countries : Array String :=
  #["Argentina", "Belgium", "Canada", "Denmark", "Egypt", "Finland", "Ghana", "Hungary",
    "Iceland", "Japan", "Kenya", "Latvia"]

def countryCodes : Array String :=
  #["AR", "BE", "CA", "DK", "EG", "FI", "GH", "HU", "IS", "JP", "KE", "LV"]

def states : Array String :=
  #["Alabama", "Alaska", "Arizona", "California", "Colorado", "Delaware", "Florida", "Georgia",
    "Hawaii", "Idaho", "Illinois", "Indiana"]

def stateCodes : Array String :=
  #["AL", "AK", "AZ", "CA", "CO", "DE", "FL", "GA", "HI", "ID", "IL", "IN"]

def streetSuffixes : Array String :=
  #["Avenue", "Boulevard", "Court", "Drive", "Lane", "Place", "Road", "Square", "Street", "Way"]

def verbs : Array String :=
  #["deploy", "extend", "integrate", "leverage", "optimize", "scale", "streamline", "transform"]

def adjectives : Array String :=
  #["adaptive", "balanced", "distributed", "flexible", "global", "modular", "robust", "secure"]

def nouns : Array String :=
  #["channels", "interfaces", "markets", "models", "networks", "platforms", "services", "systems"]

def industries : Array String :=
  #["Agriculture", "Banking", "Construction", "Education", "Energy", "Insurance", "Logistics",
    "Publishing", "Telecommunications", "Textiles"]

def companyForms : Array String := #["Group", "Inc", "LLC", "Partners"]

def currencyCodes : Array String :=
  #["AUD", "BRL", "CAD", "CHF", "CNY", "EUR", "GBP", "JPY", "MXN", "NOK", "SEK", "USD"]

def currencyNames : Array String :=
  #["Australian dollar", "Brazilian real", "Canadian dollar", "Swiss franc", "Yuan renminbi",
    "Euro", "Pound sterling", "Yen", "Mexican peso", "Norwegian krone", "Swedish krona",
    "US dollar"]

def mailDomains : Array String := #["mail.com", "post.net", "inbox.org"]

def exampleDomains : Array String := #["example.com", "example.net", "example.org"]

def browsers : Array String :=
  #["Mozilla/5.0 (X11; Linux x86_64; rv:##.0) Gecko/20100101 Firefox/##.0",
    "Mozilla/5.0 (Windows NT 10.0; Win64; x64) AppleWebKit/537.36 Chrome/##.0 Safari/537.36",
    "Opera/9.## (X11; Linux x86_64) Presto/2.9.### Version/12.##"]

def seniorities : Array String := #["Junior", "Senior", "Lead", "Principal"]

def professions : Array String :=
  #["Accountant", "Analyst", "Architect", "Consultant", "Designer", "Engineer", "Planner"]

end Words

end SchemaSampler

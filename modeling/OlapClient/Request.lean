import OlapClient.Config
import OlapClient.Error

/-!
# Request envelopes

A request is a document without indentation and with its properties in a fixed order, so that
equal requests are equal bytes. Names from the caller become names of elements and have to be
plain; texts are escaped.
-/

namespace OlapClient

/-- The shape of result that a request asks for. -/
inductive ResponseFormat where
  /-- Columns and rows. -/
  | tabular
  /-- Axes, positions and cells. -/
  | multidimensional
  deriving DecidableEq, Repr

/-- The value of the `Format` property. -/
def ResponseFormat.word : ResponseFormat → String
  | tabular => "Tabular"
  | multidimensional => "Multidimensional"

namespace Request

/-- An element with the given tag, name and content. -/
def tagged (tag name content : String) : String :=
  "<" ++ tag ++ ">" ++ content ++ "</" ++ name ++ ">"

/-- An element that holds other elements. -/
def element (name content : String) : String := tagged name name content

/-- An element that holds a text. -/
def textElement (name text : String) : String := element name (Markup.escape text)

/-- Elements that hold texts, one after the other. -/
def textElements (entries : Properties) : String :=
  String.join (entries.map fun entry => textElement entry.1 entry.2)

/-- The namespace of the methods. -/
def analysisNamespace : String := "urn:schemas-microsoft-com:xml-analysis"

/-- The envelope around a method call. -/
def envelope (method content : String) : String :=
  "<?xml version=\"1.0\" encoding=\"UTF-8\"?>" ++
    tagged
      ("SOAP-ENV:Envelope xmlns:SOAP-ENV=\"http://schemas.xmlsoap.org/soap/envelope/\"" ++
        " SOAP-ENV:encodingStyle=\"http://schemas.xmlsoap.org/soap/encoding/\"")
      "SOAP-ENV:Envelope"
      (element "SOAP-ENV:Body"
        (tagged (method ++ " xmlns=\"" ++ analysisNamespace ++ "\"") method content))

/-- The properties of a request: those of the connection, then those of the result. -/
def propertyEntries (config : Config) (format : ResponseFormat) : Properties :=
  config.requestProperties ++ [("Format", format.word), ("Content", "SchemaData")] ++
    match format with
    | .multidimensional => [("AxisFormat", "TupleFormat")]
    | .tabular => []

/-- The element that holds the properties of a request. -/
def propertyList (config : Config) (format : ResponseFormat) : String :=
  element "Properties" (element "PropertyList" (textElements (propertyEntries config format)))

/-- The text of a request that executes a statement. -/
def executeText (statement : String) (config : Config) (format : ResponseFormat) : String :=
  envelope "Execute"
    (element "Command" (textElement "Statement" statement) ++ propertyList config format)

/-- The first character of a plain name. -/
def startsName (c : Char) : Bool := c.isAlpha || c == '_'

/-- The other characters of a plain name. -/
def continuesName (c : Char) : Bool := c.isAlphanum || c == '_'

/-- A letter or underscore and then letters, digits and underscores, all of them ASCII. -/
def isPlainName (name : String) : Bool :=
  match name.toList with
  | c :: cs => startsName c && cs.all continuesName
  | [] => false

/-- Refuses what is no plain name. -/
def checkName (name : String) : Except ClientError Unit :=
  if isPlainName name then .ok () else .error (.request (.elementName name))

/-- The text of a request for metadata of the given type under restrictions. -/
def discoverText (type : String) (restrictions : Properties) (config : Config) :
    Except ClientError String := do
  checkName type
  restrictions.forM fun entry => checkName entry.1
  return envelope "Discover"
    (textElement "RequestType" type ++
      element "Restrictions" (element "RestrictionList" (textElements restrictions)) ++
      propertyList config .tabular)

/-- A request that executes a statement. -/
def execute (statement : String) (config : Config) (format : ResponseFormat) : Bytes :=
  Utf8.encode (executeText statement config format)

/-- A request for metadata. -/
def discover (type : String) (restrictions : Properties) (config : Config) :
    Except ClientError Bytes :=
  (discoverText type restrictions config).map Utf8.encode

end Request

end OlapClient

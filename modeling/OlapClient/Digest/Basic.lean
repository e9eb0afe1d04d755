import OlapClient.Config
import OlapClient.Dictionary
import OlapClient.Digest.Sha256

/-!
# Digests of requests and configurations

A request can be named by its digest. A configuration is named by the digest of its connection
properties and its cache properties; the order in which properties are visited does not matter.
-/

namespace OlapClient.Digest

/-- A digit of a byte in hexadecimal. -/
def hexDigit (n : Nat) : Char := Nat.digitChar n

/-- Bytes in hexadecimal, two digits for each. -/
def hex (bytes : Bytes) : String :=
  String.ofList (bytes.flatMap fun b => [hexDigit (b.toNat / 16), hexDigit (b.toNat % 16)])

/-- The digest of bytes in hexadecimal. -/
def ofBytes (bytes : Bytes) : String := hex (Sha256.hash bytes)

/-- A property as it enters the digest of a configuration. -/
def propertyBytes (entry : String × String) : Bytes :=
  Utf8.encode entry.1 ++ Text.byte '=' :: (Utf8.encode entry.2 ++ [0])

/-- A section of properties as it enters the digest of a configuration. -/
def sectionBytes (name : String) (properties : Properties) : Bytes :=
  Utf8.encode name ++ 0 :: (Dictionary.ofList properties).entries.flatMap propertyBytes

/-- The bytes whose digest names a configuration. -/
def configurationBytes (connection cache : Properties) : Bytes :=
  sectionBytes "connection" connection ++ sectionBytes "cache" cache

/-- The name of a configuration. -/
def sessionId (connection cache : Properties) : String :=
  ofBytes (configurationBytes connection cache)

end OlapClient.Digest

import OlapClient.Request
import OlapClient.Proofs.Markup.Recovery

/-!
# Requests read back as they were written

A request is a rendering of a tree that holds its parameters: the statement, or the type and the
restrictions, and the properties of the connection. Reading the request gives that tree, so that no
text can change what is asked for, and requests of equal bytes have equal parameters.
-/

namespace OlapClient.Request

open Text Markup Markup.Rendering

/-! ### The tree of a request -/

def leaf (name text : String) : Element := { name := name, text := text }

def branch (name : String) (children : List Element) : Element :=
  { name := name, children := children }

def leaves (entries : Properties) : List Element := entries.map fun entry => leaf entry.1 entry.2

def enveloped (method : Element) : Element :=
  { name := "Envelope"
    attributes := [("encodingStyle", "http://schemas.xmlsoap.org/soap/encoding/")]
    children := [branch "Body" [method]] }

def resultProperties : ResponseFormat → Properties
  | .tabular => [("Format", "Tabular"), ("Content", "SchemaData")]
  | .multidimensional =>
    [("Format", "Multidimensional"), ("Content", "SchemaData"), ("AxisFormat", "TupleFormat")]

/-- The properties of a connection without its address, then those of the result. -/
def listed (config : Config) (format : ResponseFormat) : Properties :=
  config.properties.filter (fun entry => entry.1 ≠ "Url") ++ resultProperties format

def propertyTree (config : Config) (format : ResponseFormat) : Element :=
  branch "Properties" [branch "PropertyList" (leaves (listed config format))]

def executeTree (statement : String) (config : Config) (format : ResponseFormat) : Element :=
  enveloped (branch "Execute"
    [branch "Command" [leaf "Statement" statement], propertyTree config format])

def discoverTree (type : String) (restrictions : Properties) (config : Config) : Element :=
  enveloped (branch "Discover"
    [leaf "RequestType" type,
      branch "Restrictions" [branch "RestrictionList" (leaves restrictions)],
      propertyTree config .tabular])

/-- Two connections differ at most in address and waiting time. -/
structure SameProperties (c c' : Config) : Prop where
  dataSourceInfo : c.dataSourceInfo = c'.dataSourceInfo
  catalog : c.catalog = c'.catalog
  role : c.role = c'.role
  locale : c.locale = c'.locale

/-! ### Plain names -/

def PlainName (name : String) : Prop :=
  ∃ first rest, name.toList = first :: rest ∧ (IsLetter first ∨ first = '_') ∧
    ∀ c ∈ rest, IsLetter c ∨ IsDigit c ∨ c = '_'

theorem startsName_iff (c : Char) : startsName c = true ↔ IsLetter c ∨ c = '_' := by
  rw [startsName, Bool.or_eq_true, beq_iff_eq, isAlpha_iff]

theorem continuesName_iff (c : Char) :
    continuesName c = true ↔ IsLetter c ∨ IsDigit c ∨ c = '_' := by
  rw [continuesName, Bool.or_eq_true, beq_iff_eq, isAlphanum_iff, or_assoc]

theorem isPlainName_iff (name : String) : isPlainName name = true ↔ PlainName name := by
  unfold isPlainName PlainName
  cases name.toList with
  | nil => simp
  | cons c cs => simp [startsName_iff, continuesName_iff]

theorem PlainName.isName {name : String} (h : PlainName name) : IsName name.toList := by
  obtain ⟨first, rest, hname, hfirst, hrest⟩ := h
  rw [hname]
  refine ⟨by simp, fun c hc => ?_⟩
  have hcontinues : continuesName c = true := by
    rw [continuesName_iff]
    rcases List.mem_cons.mp hc with rfl | hc
    · rcases hfirst with hletter | hunderscore
      · exact .inl hletter
      · exact .inr (.inr hunderscore)
    · exact hrest c hc
  simpa [continuesName] using hcontinues

theorem checkName_eq_ok (name : String) : checkName name = .ok () ↔ PlainName name := by
  rw [← isPlainName_iff, checkName]
  cases isPlainName name <;> simp

theorem checkNames_eq_ok (entries : Properties) :
    entries.forM (fun entry => checkName entry.1) = .ok () ↔
      ∀ entry ∈ entries, PlainName entry.1 := by
  induction entries with
  | nil => simp [pure, Except.pure]
  | cons entry entries ih =>
    change (checkName entry.1).bind (fun _ => entries.forM fun entry => checkName entry.1) = _ ↔ _
    rw [List.forall_mem_cons, ← ih, ← checkName_eq_ok]
    cases checkName entry.1 with
    | error e => simp [Except.bind]
    | ok u => simp [Except.bind]

theorem discover_eq_ok (type : String) (restrictions : Properties) (config : Config)
    (bytes : Bytes) :
    discover type restrictions config = .ok bytes ↔
      (PlainName type ∧ ∀ entry ∈ restrictions, PlainName entry.1) ∧
        bytes = Utf8.encode (envelope "Discover" (textElement "RequestType" type ++
          element "Restrictions" (element "RestrictionList" (textElements restrictions)) ++
          propertyList config .tabular)) := by
  rw [← checkName_eq_ok, ← checkNames_eq_ok]
  simp only [discover, discoverText]
  cases checkName type with
  | error e => simp [bind, Except.bind, Except.map]
  | ok u =>
    cases restrictions.forM fun entry => checkName entry.1 with
    | error e => simp [bind, Except.bind, Except.map]
    | ok u => simp [bind, Except.bind, Except.map, pure, Except.pure, eq_comm]

/-! ### Properties -/

theorem optional_names {α : Type} (name : String) (text : α → String) (value? : Option α) :
    ((value?.map fun v => (name, text v)).toList.map (·.1)).Sublist [name] := by
  cases value? with
  | none => exact List.nil_sublist _
  | some v => exact List.Sublist.refl _

theorem requestProperties_names (config : Config) :
    (config.requestProperties.map (·.1)).Sublist
      ["DataSourceInfo", "Catalog", "Roles", "LocaleIdentifier"] := by
  simp only [Config.requestProperties, List.map_append]
  exact (((optional_names _ id config.dataSourceInfo).append
    (optional_names _ id config.catalog)).append (optional_names _ id config.role)).append
      (optional_names _ toString config.locale)

/-- The address of the server is the only property that requests do not carry. -/
theorem properties_filter (config : Config) :
    config.properties.filter (fun entry => entry.1 ≠ "Url") = config.requestProperties := by
  have hnames : ∀ name ∈ ["DataSourceInfo", "Catalog", "Roles", "LocaleIdentifier"],
      decide (name ≠ "Url") = true := by decide
  rw [Config.properties, List.filter_cons_of_neg (by simp), List.filter_eq_self]
  intro entry hentry
  exact hnames entry.1 ((requestProperties_names config).subset (List.mem_map_of_mem hentry))

theorem listed_eq (config : Config) (format : ResponseFormat) :
    listed config format = propertyEntries config format := by
  rw [listed, properties_filter]
  cases format <;> simp [propertyEntries, resultProperties, ResponseFormat.word]

theorem listed_isName (config : Config) (format : ResponseFormat) (entry : String × String)
    (h : entry ∈ listed config format) : IsName entry.1.toList := by
  have hnames : ∀ name ∈ ["DataSourceInfo", "Catalog", "Roles", "LocaleIdentifier"],
      IsName name.toList := by decide
  have hresult : ∀ entry ∈ resultProperties format, IsName entry.1.toList := by
    cases format <;> decide
  rw [listed, properties_filter] at h
  rcases List.mem_append.mp h with h | h
  · exact hnames entry.1 ((requestProperties_names config).subset (List.mem_map_of_mem h))
  · exact hresult entry h

/-! ### What is written -/

theorem renders_tagged {name : String} {attributes : List (String × String)}
    {children : List Element} {text : List Char} (tag key content : String)
    (ht : Tag name attributes key.toList tag.toList) (hc : Content children text content.toList) :
    Renders ⟨name, attributes, children, String.ofList text⟩ (tagged tag key content).toList := by
  have hwritten : (tagged tag key content).toList = '<' :: (tag.toList ++ '>' ::
      (content.toList ++ '<' :: '/' :: (key.toList ++ ([] ++ ['>'])))) := by
    simp [tagged, String.toList_append]
  rw [hwritten]
  exact .enclosing name attributes children _ _ text _ [] ht hc (by decide)

theorem renders_element {children : List Element} {text : List Char} (name content : String)
    (hc : Content children text content.toList) :
    Renders ⟨name, [], children, String.ofList text⟩ (element name content).toList := by
  have htag : Tag name [] name.toList name.toList :=
    (Tag.mk _ [] [] .bare (by decide) (.done [] (by decide))).of_eq rfl (List.append_nil _)
  exact renders_tagged name name content htag hc

theorem renders_branch {children : List Element} (name content : String)
    (hc : Content children [] content.toList) :
    Renders (branch name children) (element name content).toList :=
  renders_element name content hc

theorem renders_leaf (name text : String) :
    Renders (leaf name text) (textElement name text).toList := by
  have hescaped : Escaped ['<'] (escape text).toList text.toList := by
    rw [escape, String.toList_ofList]
    exact escaped_escape ['<'] text.toList (by simp [namedCharacters])
  have hcontent := Content.text _ _ [] [] [] hescaped .nil
  rw [List.append_nil, List.append_nil] at hcontent
  have hrenders := renders_element name (escape text) hcontent
  rw [String.ofList_toList] at hrenders
  exact hrenders

theorem content_cons {e : Element} {children : List Element} (first rest : String)
    (h : Renders e first.toList) (hc : Content children [] rest.toList) :
    Content (e :: children) [] (first ++ rest).toList := by
  rw [String.toList_append]
  exact .child e _ children [] _ h hc

theorem content_one {e : Element} (written : String) (h : Renders e written.toList) :
    Content [e] [] written.toList := by
  have hone := Content.child e _ [] [] [] h .nil
  rwa [List.append_nil] at hone

theorem content_leaves (entries : Properties) :
    Content (leaves entries) [] (textElements entries).toList := by
  induction entries with
  | nil => exact .nil
  | cons entry entries ih =>
    have hfirst := renders_leaf entry.1 entry.2
    have hcons := content_cons _ (textElements entries) hfirst ih
    rw [textElements, List.map_cons, String.join_cons]
    exact hcons

theorem renders_propertyTree (config : Config) (format : ResponseFormat) :
    Renders (propertyTree config format) (propertyList config format).toList := by
  rw [propertyTree, listed_eq]
  exact renders_branch "Properties" _ (content_one _ (renders_branch "PropertyList" _
    (content_leaves (propertyEntries config format))))

/-- The declaration before the root element, without its marks. -/
def declaration : List Char := "xml version=\"1.0\" encoding=\"UTF-8\"".toList

theorem tag_method (method : String) : Tag method [] method.toList
    (method ++ " xmlns=\"" ++ analysisNamespace ++ "\"").toList := by
  have hdeclared : Attributes [] [xmlns]
      (" xmlns=\"".toList ++ (analysisNamespace.toList ++ "\"".toList)) :=
    .declaring [' '] _ ['='] '"' _ [] [] [] (by decide) (by decide) .default
      (.mk [] [] (by decide) (by decide)) (.inl rfl) (by decide) (.done [] (by decide))
  have htag : Tag method [] method.toList
      (method.toList ++ (" xmlns=\"".toList ++ (analysisNamespace.toList ++ "\"".toList))) :=
    .mk _ _ _ .bare (by decide) hdeclared
  simpa only [String.toList_append, List.append_assoc] using htag

/-- What stands in the opening tag of an envelope. -/
def envelopeTag : String :=
  "SOAP-ENV:Envelope xmlns:SOAP-ENV=\"http://schemas.xmlsoap.org/soap/envelope/\"" ++
    " SOAP-ENV:encodingStyle=\"http://schemas.xmlsoap.org/soap/encoding/\""

theorem tag_envelope :
    Tag "Envelope" [("encodingStyle", "http://schemas.xmlsoap.org/soap/encoding/")]
      "SOAP-ENV:Envelope".toList envelopeTag.toList := by
  have hprefix : IsPrefix "SOAP-ENV".toList := by decide
  have hequals : Equals ['='] := .mk [] [] (by decide) (by decide)
  have hencoding := escaped_self ['"'] "http://schemas.xmlsoap.org/soap/encoding/".toList
    (forall_of_all _ (by decide +kernel))
  have hgiven := Attributes.named [' '] "encodingStyle" _ ['='] '"' _ _ [] [] [] (by decide)
    (by decide) (.prefixed _ hprefix) hequals (.inl rfl) hencoding (.done [] (by decide))
  have hdeclared := Attributes.declaring [' '] _ ['='] '"'
    "http://schemas.xmlsoap.org/soap/envelope/".toList _ _ _ (by decide) (by decide)
    (.prefixed "SOAP-ENV".toList (by decide)) hequals (.inl rfl) (by decide +kernel) hgiven
  have hkey : Qualified "Envelope".toList ("SOAP-ENV".toList ++ ':' :: "Envelope".toList) :=
    .prefixed _ hprefix
  rw [String.ofList_toList] at hdeclared
  exact (Tag.mk _ _ _ hkey (by decide) hdeclared).of_eq (by decide +kernel) (by decide +kernel)

theorem renders_envelope {children : List Element} (method content : String)
    (hc : Content children [] content.toList) : ∃ raw,
      (envelope method content).toList = '<' :: '?' :: (declaration ++ ['?', '>']) ++ raw ∧
        Renders (enveloped (branch method children)) raw := by
  have hprolog : "<?xml version=\"1.0\" encoding=\"UTF-8\"?>".toList =
      '<' :: '?' :: (declaration ++ ['?', '>']) := by decide +kernel
  have hmethod := renders_tagged _ method content (tag_method method) hc
  have hkey : Qualified "Body".toList "SOAP-ENV:Body".toList :=
    .prefixed "SOAP-ENV".toList (by decide)
  have hbody : Tag "Body" [] "SOAP-ENV:Body".toList "SOAP-ENV:Body".toList :=
    (Tag.mk _ [] [] hkey (by decide) (.done [] (by decide))).of_eq rfl (List.append_nil _)
  have hinner := renders_tagged "SOAP-ENV:Body" "SOAP-ENV:Body" _ hbody (content_one _ hmethod)
  have houter := renders_tagged envelopeTag "SOAP-ENV:Envelope" _ tag_envelope
    (content_one _ hinner)
  have hsplit : envelope method content = "<?xml version=\"1.0\" encoding=\"UTF-8\"?>" ++
      tagged envelopeTag "SOAP-ENV:Envelope" (tagged "SOAP-ENV:Body" "SOAP-ENV:Body"
        (tagged (method ++ " xmlns=\"" ++ analysisNamespace ++ "\"") method content)) := rfl
  refine ⟨_, ?_, houter⟩
  rw [hsplit, String.toList_append, hprolog]

/-! ### Plain trees -/

theorem wellNamed_leaf (name text : String) (h : IsName name.toList) : (leaf name text).WellNamed :=
  .mk name [] [] text h (by simp) (by simp) (by simp)

theorem wellNamed_branch (name : String) (children : List Element) (h : IsName name.toList)
    (hc : ∀ c ∈ children, c.WellNamed) : (branch name children).WellNamed :=
  .mk name [] children "" h (by simp) (by simp) hc

theorem wellNamed_leaves (entries : Properties) (h : ∀ entry ∈ entries, IsName entry.1.toList) :
    ∀ c ∈ leaves entries, c.WellNamed := by
  intro c hc
  obtain ⟨entry, hentry, rfl⟩ := List.mem_map.mp hc
  exact wellNamed_leaf entry.1 entry.2 (h entry hentry)

theorem wellNamed_propertyTree (config : Config) (format : ResponseFormat) :
    (propertyTree config format).WellNamed := by
  refine wellNamed_branch "Properties" _ (by decide) (List.forall_mem_singleton.mpr ?_)
  exact wellNamed_branch "PropertyList" _ (by decide)
    (wellNamed_leaves _ (listed_isName config format))

theorem wellNamed_enveloped (method : Element) (h : method.WellNamed) :
    (enveloped method).WellNamed := by
  refine .mk "Envelope" _ _ _ (by decide) (by decide) (by decide) (List.forall_mem_singleton.mpr ?_)
  exact wellNamed_branch "Body" _ (by decide) (List.forall_mem_singleton.mpr h)

/-! ### Reading requests -/

theorem envelope_reads_as_tree (method content : String) (children : List Element)
    (hn : IsName method.toList) (hchildren : ∀ c ∈ children, c.WellNamed)
    (hc : Content children [] content.toList) :
    readDocument (Utf8.encode (envelope method content)) =
      .ok (enveloped (branch method children)) := by
  obtain ⟨raw, hraw, hrenders⟩ := renders_envelope method content hc
  have hw := wellNamed_enveloped _ (wellNamed_branch method children hn hchildren)
  rw [Utf8.encode, hraw]
  exact readDocument_declared _ hw declaration raw (by decide +kernel) hrenders

theorem execute_reads_as_tree (statement : String) (config : Config) (format : ResponseFormat) :
    readDocument (execute statement config format) = .ok (executeTree statement config format) := by
  refine envelope_reads_as_tree "Execute" _ _ (by decide) ?_ ?_
  · have hcommand : (branch "Command" [leaf "Statement" statement]).WellNamed :=
      wellNamed_branch "Command" _ (by decide)
        (List.forall_mem_singleton.mpr (wellNamed_leaf "Statement" statement (by decide)))
    exact List.forall_mem_cons.mpr
      ⟨hcommand, List.forall_mem_singleton.mpr (wellNamed_propertyTree config format)⟩
  · have hcommand := renders_branch "Command" _ (content_one _ (renders_leaf "Statement" statement))
    exact content_cons _ _ hcommand (content_one _ (renders_propertyTree config format))

theorem discover_reads_as_tree (type : String) (restrictions : Properties) (config : Config)
    (bytes : Bytes) (h : discover type restrictions config = .ok bytes) :
    readDocument bytes = .ok (discoverTree type restrictions config) := by
  obtain ⟨hnames, hbytes⟩ := (discover_eq_ok type restrictions config bytes).mp h
  have hplain := hnames.2
  rw [hbytes]
  refine envelope_reads_as_tree "Discover" _ _ (by decide) ?_ ?_
  · have hlist : (branch "RestrictionList" (leaves restrictions)).WellNamed :=
      wellNamed_branch "RestrictionList" _ (by decide)
        (wellNamed_leaves restrictions fun entry hentry => (hplain entry hentry).isName)
    have hrestrictions : (branch "Restrictions"
        [branch "RestrictionList" (leaves restrictions)]).WellNamed :=
      wellNamed_branch "Restrictions" _ (by decide) (List.forall_mem_singleton.mpr hlist)
    exact List.forall_mem_cons.mpr ⟨wellNamed_leaf "RequestType" type (by decide),
      List.forall_mem_cons.mpr ⟨hrestrictions,
        List.forall_mem_singleton.mpr (wellNamed_propertyTree config .tabular)⟩⟩
  · have hrestrictions := renders_branch "Restrictions" _ (content_one _
      (renders_branch "RestrictionList" _ (content_leaves restrictions)))
    rw [String.append_assoc]
    exact content_cons _ _ (renders_leaf "RequestType" type)
      (content_cons _ _ hrestrictions (content_one _ (renders_propertyTree config .tabular)))

/-! ### Requests of equal bytes -/

theorem repr_injective (m n : Nat) (h : m.repr = n.repr) : m = n := by
  have hdigits : Nat.toDigits 10 m = Nat.toDigits 10 n := String.ofList_injective h
  have hread : ∀ k, Nat.ofDigitChars 10 (Nat.toDigits 10 k) 0 = k := fun k =>
    Nat.ofDigitChars_toDigits (by decide) (by decide)
  rw [← hread m, hdigits, hread n]

theorem leaves_injective (entries entries' : Properties) (h : leaves entries = leaves entries') :
    entries = entries' := by
  refine List.map_injective_iff.mpr ?_ h
  intro entry entry' heq
  have hname : entry.1 = entry'.1 := congrArg Element.name heq
  have htext : entry.2 = entry'.2 := congrArg Element.text heq
  exact Prod.ext hname htext

theorem childText_leaves (name : String) (entries : Properties) (key : String) :
    (branch name (leaves entries)).childText? key =
      (entries.find? fun entry => entry.1 == key).map (·.2) := by
  change ((leaves entries).find? fun c => c.name == key).map (·.text) = _
  rw [leaves, List.find?_map, Option.map_map]
  rfl

theorem find_optional {α : Type} (name key : String) (text : α → String) (value? : Option α) :
    ((value?.map fun v => (name, text v)).toList.find? fun entry => entry.1 == key) =
      if name = key then value?.map fun v => (name, text v) else none := by
  cases value? with
  | none => simp
  | some v => by_cases h : name = key <;> simp [h]

theorem find_named (name key : String) (value? : Option String) :
    ((value?.map fun v => (name, v)).toList.find? fun entry => entry.1 == key) =
      if name = key then value?.map fun v => (name, v) else none :=
  find_optional name key id value?

/-- Each property is found under its name, and is absent when it was unset. -/
theorem childText_listed (config : Config) (format : ResponseFormat) :
    let list := branch "PropertyList" (leaves (listed config format))
    list.childText? "DataSourceInfo" = config.dataSourceInfo ∧
      list.childText? "Catalog" = config.catalog ∧ list.childText? "Roles" = config.role ∧
      list.childText? "LocaleIdentifier" = config.locale.map Nat.repr ∧
      list.childText? "Format" = some format.word := by
  simp only [childText_leaves, listed_eq, propertyEntries, Config.requestProperties,
    List.find?_append, find_optional, find_named]
  cases format <;> simp [ResponseFormat.word, Option.map_map, Function.comp_def]

/-- Properties that are listed alike are the same, set or unset. -/
theorem same_of_propertyTree (config config' : Config) (format format' : ResponseFormat)
    (h : propertyTree config format = propertyTree config' format') :
    SameProperties config config' ∧ format = format' := by
  have hlist : branch "PropertyList" (leaves (listed config format)) =
      branch "PropertyList" (leaves (listed config' format')) :=
    List.head_eq_of_cons_eq (congrArg Element.children h)
  obtain ⟨hdataSourceInfo, hcatalog, hrole, hlocale, hword⟩ := childText_listed config format
  rw [hlist] at hdataSourceInfo hcatalog hrole hlocale hword
  obtain ⟨hdataSourceInfo', hcatalog', hrole', hlocale', hword'⟩ := childText_listed config' format'
  refine ⟨⟨?_, ?_, ?_, ?_⟩, ?_⟩
  · exact hdataSourceInfo.symm.trans hdataSourceInfo'
  · exact hcatalog.symm.trans hcatalog'
  · exact hrole.symm.trans hrole'
  · exact Option.map_injective (fun m n => repr_injective m n) (hlocale.symm.trans hlocale')
  · have hsame := Option.some.inj (hword.symm.trans hword')
    cases format <;> cases format' <;> first | rfl | exact absurd hsame (by decide)

theorem enveloped_injective (method method' : Element) (h : enveloped method = enveloped method') :
    method = method' := by
  have hbody : branch "Body" [method] = branch "Body" [method'] :=
    List.head_eq_of_cons_eq (congrArg Element.children h)
  exact List.head_eq_of_cons_eq (congrArg Element.children hbody)

theorem executeTree_injective (statement statement' : String) (config config' : Config)
    (format format' : ResponseFormat)
    (h : executeTree statement config format = executeTree statement' config' format') :
    statement = statement' ∧ format = format' ∧ SameProperties config config' := by
  have hchildren := congrArg Element.children (enveloped_injective _ _ h)
  obtain ⟨hcommand, hrest⟩ := List.cons.inj hchildren
  have hleaf := List.head_eq_of_cons_eq (congrArg Element.children hcommand)
  have hproperties :=
    same_of_propertyTree config config' format format' (List.head_eq_of_cons_eq hrest)
  exact ⟨congrArg Element.text hleaf, hproperties.2, hproperties.1⟩

theorem discoverTree_injective (type type' : String) (restrictions restrictions' : Properties)
    (config config' : Config)
    (h : discoverTree type restrictions config = discoverTree type' restrictions' config') :
    type = type' ∧ restrictions = restrictions' ∧ SameProperties config config' := by
  have hchildren := congrArg Element.children (enveloped_injective _ _ h)
  obtain ⟨htype, hrest⟩ := List.cons.inj hchildren
  obtain ⟨hrestrictions, hrest⟩ := List.cons.inj hrest
  have hlist := List.head_eq_of_cons_eq (congrArg Element.children hrestrictions)
  have hproperties := same_of_propertyTree config config' _ _ (List.head_eq_of_cons_eq hrest)
  exact ⟨congrArg Element.text htype, leaves_injective _ _ (congrArg Element.children hlist),
    hproperties.1⟩

theorem executeTree_ne_discoverTree (statement : String) (config : Config)
    (format : ResponseFormat) (type : String) (restrictions : Properties) (config' : Config) :
    executeTree statement config format ≠ discoverTree type restrictions config' := by
  intro h
  have hname : "Execute" = "Discover" := congrArg Element.name (enveloped_injective _ _ h)
  exact absurd hname (by decide)

theorem requests_read_back :
    (∀ statement config format,
      readDocument (execute statement config format) =
        .ok (executeTree statement config format)) ∧
    (∀ type restrictions config,
      (∃ bytes, discover type restrictions config = .ok bytes) ↔
        PlainName type ∧ ∀ entry ∈ restrictions, PlainName entry.1) ∧
    (∀ type restrictions config bytes, discover type restrictions config = .ok bytes →
      readDocument bytes = .ok (discoverTree type restrictions config)) ∧
    (∀ config : Config, ((config.properties.filter fun entry => entry.1 ≠ "Url").map (·.1)).Sublist
      ["DataSourceInfo", "Catalog", "Roles", "LocaleIdentifier"]) ∧
    (∀ statement config format statement' config' format',
      execute statement config format = execute statement' config' format' →
        statement = statement' ∧ format = format' ∧ SameProperties config config') ∧
    (∀ type restrictions config type' restrictions' config' bytes,
      discover type restrictions config = .ok bytes →
      discover type' restrictions' config' = .ok bytes →
        type = type' ∧ restrictions = restrictions' ∧ SameProperties config config') ∧
    (∀ statement config format type restrictions config',
      discover type restrictions config' ≠ .ok (execute statement config format)) := by
  refine ⟨execute_reads_as_tree, ?_, discover_reads_as_tree, ?_, ?_, ?_, ?_⟩
  · intro type restrictions config
    refine ⟨?_, ?_⟩
    · rintro ⟨bytes, hbytes⟩
      exact ((discover_eq_ok type restrictions config bytes).mp hbytes).1
    · intro hplain
      exact ⟨_, (discover_eq_ok type restrictions config _).mpr ⟨hplain, rfl⟩⟩
  · intro config
    rw [properties_filter]
    exact requestProperties_names config
  · intro statement config format statement' config' format' h
    have hread := execute_reads_as_tree statement config format
    rw [h, execute_reads_as_tree statement' config' format'] at hread
    exact executeTree_injective _ _ _ _ _ _ (Except.ok.inj hread).symm
  · intro type restrictions config type' restrictions' config' bytes h h'
    have hread := discover_reads_as_tree type restrictions config bytes h
    rw [discover_reads_as_tree type' restrictions' config' bytes h'] at hread
    exact discoverTree_injective _ _ _ _ _ _ (Except.ok.inj hread).symm
  · intro statement config format type restrictions config' h
    have hread := discover_reads_as_tree type restrictions config' _ h
    rw [execute_reads_as_tree statement config format] at hread
    exact executeTree_ne_discoverTree _ _ _ _ _ _ (Except.ok.inj hread)

/-- Markup in every text, and a catalog that is empty where another has none. -/
theorem hostile_requests_read_back :
    readDocument (execute "1</Statement>&lt;]]>" ⟨"", none, some "", some "<Roles>", none, none⟩
      .multidimensional) =
        .ok (enveloped (branch "Execute" [
          branch "Command" [leaf "Statement" "1</Statement>&lt;]]>"],
          branch "Properties" [branch "PropertyList" [leaf "Catalog" "", leaf "Roles" "<Roles>",
            leaf "Format" "Multidimensional", leaf "Content" "SchemaData",
            leaf "AxisFormat" "TupleFormat"]]])) ∧
    (∃ bytes, discover "_T1" [("A", "<!--"), ("A", "")] ⟨"", none, none, none, none, none⟩ =
        .ok bytes ∧
      readDocument bytes = .ok (enveloped (branch "Discover" [leaf "RequestType" "_T1",
        branch "Restrictions" [branch "RestrictionList" [leaf "A" "<!--", leaf "A" ""]],
        branch "Properties" [branch "PropertyList" [leaf "Format" "Tabular",
          leaf "Content" "SchemaData"]]]))) ∧
    (¬ ∃ bytes, discover "T" [("A b", "")] ⟨"", none, none, none, none, none⟩ = .ok bytes) ∧
    execute "1" ⟨"", none, none, none, none, none⟩ .tabular ≠
      execute "1" ⟨"", none, some "", none, none, none⟩ .tabular := by
  obtain ⟨hexecute, hplain, hdiscover, -, hinjective, -⟩ := requests_read_back
  have hletter : PlainName "A" := ⟨'A', [], rfl, by decide, by simp⟩
  refine ⟨hexecute _ _ _, ?_, ?_, ?_⟩
  · obtain ⟨bytes, hbytes⟩ := (hplain "_T1" [("A", "<!--"), ("A", "")] _).mpr
      ⟨⟨'_', ['T', '1'], rfl, by decide, forall_of_all _ (by decide)⟩, by simp [hletter]⟩
    exact ⟨bytes, hbytes, hdiscover _ _ _ _ hbytes⟩
  · intro hsome
    obtain ⟨first, rest, hname, -, hrest⟩ := ((hplain _ _ _).mp hsome).2 ("A b", "") (by simp)
    have hchars : ['A', ' ', 'b'] = first :: rest := hname
    cases hchars
    exact absurd (hrest ' ' List.mem_cons_self) (by decide)
  · intro heq
    exact absurd (hinjective _ _ _ _ _ _ heq).2.2.catalog (by simp)

end OlapClient.Request

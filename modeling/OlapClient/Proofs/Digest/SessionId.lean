import Mathlib.Data.List.Basic
import OlapClient.Digest.Basic
import OlapClient.Proofs.Dictionary
import OlapClient.Proofs.Text.Encoding
import OlapClient.Proofs.Text.SelfDelimiting

/-!
# What the name of a configuration tells

The name of a configuration is the digest of one text: a header and the entries of the connection
properties, a header and the entries of the cache properties, each key before an equals sign and
each value before a NUL. The order in which properties are visited does not show in it. Where keys
hold no equals sign and values no NUL, each entry shows where it ends and the text tells the
properties. But keys and values are written as they are, so that what stands for two properties, or
for an end of the first section, can also stand within one key or one value; only a text with at
most one equals sign in each section, and with one place for the header between them, is the text of
one configuration.
-/

namespace OlapClient.Digest

/-- The digest does not take these two messages for one another. No digest does so for all messages,
of which there are more than digests. -/
def Distinguishes (message message' : Bytes) : Prop :=
  Sha256.hash message = Sha256.hash message' → message = message'

/-! ### Digits -/

theorem hexDigit_injective (m n : Nat) (hm : m < 16) (hn : n < 16)
    (h : hexDigit m = hexDigit n) : m = n := by
  have hall : ∀ m < 16, ∀ n < 16, hexDigit m = hexDigit n → m = n := by decide
  exact hall m hm n hn h

theorem hexDigits_selfDelimiting : SelfDelimiting (fun _ : UInt8 => True)
    (fun b => [hexDigit (b.toNat / 16), hexDigit (b.toNat % 16)]) [] := by
  intro a b rest rest' _ _ _ _ he
  obtain ⟨hhigh, he⟩ := List.cons.inj he
  obtain ⟨hlow, hrest⟩ := List.cons.inj he
  have ha := a.toNat_lt
  have hb := b.toNat_lt
  have hquotient := hexDigit_injective _ _ (by omega) (by omega) hhigh
  have hremainder := hexDigit_injective _ _ (by omega) (by omega) hlow
  exact ⟨UInt8.toNat_inj.mp (by omega), hrest⟩

theorem hex_injective (bytes bytes' : Bytes) (h : hex bytes = hex bytes') : bytes = bytes' := by
  have he := String.ofList_injective h
  have hend : ∀ b : UInt8, True → ¬ [hexDigit (b.toNat / 16), hexDigit (b.toNat % 16)] <+: [] :=
    fun b _ => by simp
  exact (hexDigits_selfDelimiting.repeated bytes bytes' [] [] (fun _ _ => trivial)
    (fun _ _ => trivial) hend hend (by rw [he])).1

/-! ### Property maps and their text -/

/-- No key occurs twice. -/
def IsMap (properties : Properties) : Prop := (properties.map (·.1)).Nodup

instance (properties : Properties) : Decidable (IsMap properties) :=
  inferInstanceAs (Decidable (properties.map (·.1)).Nodup)

theorem isMap_singleton (entry : String × String) : IsMap [entry] := List.nodup_singleton _

/-- The text of an entry. -/
def entryChars (entry : String × String) : List Char :=
  (entry.1.toList ++ ['=']) ++ (entry.2.toList ++ ['\x00'])

/-- The text of the entries of a section. -/
def bodyChars (properties : Properties) : List Char :=
  (Dictionary.ofList properties).entries.flatMap entryChars

/-- What stands before the entries of a section. -/
def header (name : String) : List Char := name.toList ++ ['\x00']

/-- The text whose digest names a configuration. -/
def configurationChars (connection cache : Properties) : List Char :=
  (header "connection" ++ bodyChars connection) ++ (header "cache" ++ bodyChars cache)

theorem propertyBytes_eq (entry : String × String) :
    propertyBytes entry = Utf8.encodeChars (entryChars entry) := by
  simp only [entryChars, Utf8.encodeChars_append]
  rw [Utf8.encodeChars_cons_ascii '=' (by decide), Utf8.encodeChars_cons_ascii '\x00' (by decide)]
  simp [propertyBytes, Utf8.encode, Utf8.encodeChars, Text.byte]

theorem sectionBytes_eq (name : String) (properties : Properties) :
    sectionBytes name properties =
      Utf8.encodeChars (header name ++ bodyChars properties) := by
  have hbody : (Dictionary.ofList properties).entries.flatMap propertyBytes =
      Utf8.encodeChars (bodyChars properties) := by
    rw [bodyChars, Utf8.encodeChars, List.flatMap_assoc]
    exact List.flatMap_congr fun entry _ => propertyBytes_eq entry
  simp only [header, Utf8.encodeChars_append]
  rw [Utf8.encodeChars_cons_ascii '\x00' (by decide), sectionBytes, hbody]
  simp [Utf8.encode, Utf8.encodeChars, Text.byte]

theorem configurationBytes_eq (connection cache : Properties) :
    configurationBytes connection cache =
      Utf8.encodeChars (configurationChars connection cache) := by
  rw [configurationBytes, sectionBytes_eq, sectionBytes_eq]
  exact (Utf8.encodeChars_append _ _).symm

variable {connection cache connection' cache' : Properties}

theorem sessionId_congr
    (h : configurationChars connection cache = configurationChars connection' cache') :
    sessionId connection cache = sessionId connection' cache' := by
  rw [sessionId, sessionId, configurationBytes_eq, configurationBytes_eq, h]

theorem configurationChars_of_sessionId
    (hdistinct : Distinguishes (configurationBytes connection cache)
      (configurationBytes connection' cache'))
    (h : sessionId connection cache = sessionId connection' cache') :
    configurationChars connection cache = configurationChars connection' cache' := by
  have hbytes := hdistinct (hex_injective _ _ h)
  rw [configurationBytes_eq, configurationBytes_eq] at hbytes
  exact Utf8.encodeChars_injective _ _ hbytes

/-- What determines the text of a configuration. -/
theorem configurationChars_eq_iff :
    configurationChars connection cache = configurationChars connection' cache' ↔
      bodyChars connection ++ (header "cache" ++ bodyChars cache) =
        bodyChars connection' ++ (header "cache" ++ bodyChars cache') := by
  rw [configurationChars, configurationChars, List.append_assoc, List.append_assoc,
    List.append_cancel_left_eq]

theorem bodyChars_congr {p q : Properties} (hp : IsMap p) (h : p.Perm q) :
    bodyChars p = bodyChars q := by
  have hq : IsMap q := (h.map _).nodup_iff.mp hp
  rw [bodyChars, bodyChars, (Dictionary.ofList_eq_iff hp hq).mpr h]

/-! ### Where the separators are found again -/

/-- The separators of an entry are the first of their kind. -/
def IsPlain (entry : String × String) : Prop := '=' ∉ entry.1.toList ∧ '\x00' ∉ entry.2.toList

/-- The same for an entry of the first section, which must not begin like the second header. -/
def IsPlainConnection (entry : String × String) : Prop :=
  IsPlain entry ∧ ¬ header "cache" <+: entry.1.toList

instance (entry : String × String) : Decidable (IsPlain entry) :=
  inferInstanceAs (Decidable ('=' ∉ entry.1.toList ∧ '\x00' ∉ entry.2.toList))

instance (entry : String × String) : Decidable (IsPlainConnection entry) :=
  inferInstanceAs (Decidable (IsPlain entry ∧ ¬ header "cache" <+: entry.1.toList))

/-- The separators of a configuration can be told from its keys and values. -/
structure Plain (connection cache : Properties) : Prop where
  connection : ∀ entry ∈ connection, IsPlainConnection entry
  cache : ∀ entry ∈ cache, IsPlain entry

theorem entryChars_selfDelimiting : SelfDelimiting IsPlain entryChars [] :=
  ((SelfDelimiting.upTo '=').append (SelfDelimiting.upTo '\x00')).comap
    (fun entry : String × String => (entry.1.toList, entry.2.toList))
    (fun _ _ h => Prod.ext (String.toList_injective (Prod.mk.inj h).1)
      (String.toList_injective (Prod.mk.inj h).2))
    fun _ h => h

/-- Only an entry whose key begins with the header begins like it. -/
theorem header_prefix_key (entry : String × String) (rest : List Char)
    (h : entryChars entry <+: header "cache" ++ rest) : header "cache" <+: entry.1.toList := by
  have hkey : entry.1.toList ++ ['='] <+: header "cache" ++ rest :=
    (List.prefix_append _ _).trans h
  rcases List.prefix_or_prefix_of_prefix hkey (List.prefix_append _ _) with hshort | hlong
  · -- the equals sign would be one of the characters of the header
    exact absurd (hshort.subset (by simp)) (by decide : '=' ∉ header "cache")
  · rcases List.prefix_concat_iff.mp hlong with heq | hprefix
    · exact absurd (heq ▸ by simp) (by decide : '=' ∉ header "cache")
    · exact hprefix

/-- The entries of the first section end where the second header begins. -/
theorem connection_entries {es es' : List (String × String)} {rest rest' : List Char}
    (hes : ∀ entry ∈ es, IsPlainConnection entry) (hes' : ∀ entry ∈ es', IsPlainConnection entry)
    (he : es.flatMap entryChars ++ (header "cache" ++ rest) =
      es'.flatMap entryChars ++ (header "cache" ++ rest')) : es = es' ∧ rest = rest' := by
  have hpieces : SelfDelimiting IsPlainConnection entryChars [] :=
    fun a b rest rest' ha hb => entryChars_selfDelimiting a b rest rest' ha.1 hb.1
  have hends : ∀ rest entry, IsPlainConnection entry →
      ¬ entryChars entry <+: header "cache" ++ rest :=
    fun rest entry hplain hprefix => hplain.2 (header_prefix_key entry rest hprefix)
  obtain ⟨hsame, hrest⟩ := hpieces.repeated es es' _ _ hes hes' (hends rest) (hends rest') he
  exact ⟨hsame, List.append_cancel_left hrest⟩

/-- The entries of the second section go on to the end. -/
theorem cache_entries {es es' : List (String × String)} (hes : ∀ entry ∈ es, IsPlain entry)
    (hes' : ∀ entry ∈ es', IsPlain entry) (he : es.flatMap entryChars = es'.flatMap entryChars) :
    es = es' := by
  have hends : ∀ entry, IsPlain entry → ¬ entryChars entry <+: [] := by simp [entryChars]
  exact (entryChars_selfDelimiting.repeated es es' [] [] hes hes' hends hends (by rw [he])).1

theorem Plain.perm_of_chars (h : Plain connection cache) (h' : Plain connection' cache')
    (hmap : IsMap connection ∧ IsMap cache) (hmap' : IsMap connection' ∧ IsMap cache')
    (he : configurationChars connection cache = configurationChars connection' cache') :
    connection.Perm connection' ∧ cache.Perm cache' := by
  obtain ⟨hconnection, hrest⟩ := connection_entries
    (fun entry hmem => h.connection entry (Dictionary.mem_of_mem_ofList hmem))
    (fun entry hmem => h'.connection entry (Dictionary.mem_of_mem_ofList hmem))
    (configurationChars_eq_iff.mp he)
  have hcache := cache_entries
    (fun entry hmem => h.cache entry (Dictionary.mem_of_mem_ofList hmem))
    (fun entry hmem => h'.cache entry (Dictionary.mem_of_mem_ofList hmem)) hrest
  exact ⟨(Dictionary.ofList_eq_iff hmap.1 hmap'.1).mp hconnection,
    (Dictionary.ofList_eq_iff hmap.2 hmap'.2).mp hcache⟩

/-! ### Texts that can be read as entries -/

/-- A text is that of some section: it is empty, or an equals sign stands in it and a NUL at its
end. -/
def IsBody (text : List Char) : Prop :=
  text = [] ∨ ('=' ∈ text ∧ text.getLast? = some '\x00')

theorem isBody_bodyChars (properties : Properties) : IsBody (bodyChars properties) := by
  rw [bodyChars]
  rcases List.eq_nil_or_concat' (Dictionary.ofList properties).entries with hnil | ⟨front, e, he⟩
  · rw [hnil]
    exact .inl rfl
  · rw [he, List.flatMap_append, List.flatMap_singleton]
    refine .inr ⟨by simp [entryChars], ?_⟩
    rw [entryChars, ← List.append_assoc, ← List.append_assoc, List.getLast?_concat]

/-- The text of one entry: the key ends at one of its equals signs. -/
theorem bodyChars_entry (key value : List Char) :
    bodyChars [(String.ofList key, String.ofList value)] = key ++ '=' :: (value ++ ['\x00']) := by
  simp [bodyChars, Dictionary.ofList, Dictionary.insert, Dictionary.insertEntry, entryChars]

theorem exists_value {text front behind : List Char} (h : IsBody text)
    (hsplit : text = front ++ '=' :: behind) : ∃ value, behind = value ++ ['\x00'] := by
  rcases h with rfl | ⟨-, hlast⟩
  · simp at hsplit
  · rcases List.eq_nil_or_concat' behind with rfl | ⟨value, last, rfl⟩
    · rw [hsplit] at hlast
      simp at hlast
    · rw [hsplit, ← List.cons_append, ← List.append_assoc, List.getLast?_concat] at hlast
      exact ⟨value, by rw [Option.some.inj hlast]⟩

theorem exists_map_of_isBody {text : List Char} (h : IsBody text) :
    ∃ p, IsMap p ∧ bodyChars p = text := by
  rcases h with rfl | ⟨hmem, hlast⟩
  · exact ⟨[], .nil, rfl⟩
  · obtain ⟨key, behind, hsplit⟩ := List.append_of_mem hmem
    obtain ⟨value, rfl⟩ := exists_value (.inr ⟨hmem, hlast⟩) hsplit
    exact ⟨_, isMap_singleton _, (bodyChars_entry key value).trans hsplit.symm⟩

/-- With a second equals sign the key can end at another place. -/
theorem exists_other_map (p : Properties) (htwo : 2 ≤ (bodyChars p).count '=') :
    ∃ q, IsMap q ∧ bodyChars q = bodyChars p ∧ ¬ p.Perm q := by
  obtain ⟨key, behind, hfirst, hkey⟩ := List.eq_append_cons_of_mem
    (List.count_pos_iff.mp (Nat.lt_of_lt_of_le Nat.zero_lt_two htwo))
  have hsecond : '=' ∈ behind := by
    rw [hfirst, List.count_append, List.count_cons_self, List.count_eq_zero.mpr hkey] at htwo
    exact List.count_pos_iff.mp (by omega)
  obtain ⟨more, behind', rfl⟩ := List.append_of_mem hsecond
  have hsplit : bodyChars p = (key ++ '=' :: more) ++ '=' :: behind' := by
    rw [hfirst, List.append_assoc, List.cons_append]
  obtain ⟨value, rfl⟩ := exists_value (isBody_bodyChars p) hsplit
  let early : Properties := [(String.ofList key, String.ofList (more ++ '=' :: value))]
  let late : Properties := [(String.ofList (key ++ '=' :: more), String.ofList value)]
  have hearly : bodyChars early = bodyChars p := by
    rw [hfirst, bodyChars_entry, List.append_assoc, List.cons_append]
  have hlate : bodyChars late = bodyChars p := by
    rw [hsplit, bodyChars_entry]
  have hne : ¬ early.Perm late := by
    intro hperm
    have hkeys := (Prod.mk.inj (List.singleton_perm_singleton.mp hperm)).1
    exact absurd (String.ofList_injective hkeys) (by simp)
  by_cases hp : p.Perm early
  · exact ⟨late, isMap_singleton _, hlate, fun h => hne (hp.symm.trans h)⟩
  · exact ⟨early, isMap_singleton _, hearly, hp⟩

/-! ### Texts with one reading -/

theorem entryChars_injective {e e' : String × String} (hone : (entryChars e).count '=' ≤ 1)
    (h : entryChars e = entryChars e') : e = e' := by
  simp only [entryChars, List.append_assoc, List.singleton_append] at h hone
  rw [List.count_append, List.count_cons_self] at hone
  have hkey : '=' ∉ e.1.toList := List.count_eq_zero.mp (by omega)
  have hvalue : '=' ∉ e.2.toList ++ ['\x00'] := List.count_eq_zero.mp (by omega)
  obtain ⟨hkeys, -, hvalues⟩ := (List.append_cons_inj_of_notMem hkey hvalue).mp h
  exact Prod.ext (String.toList_injective hkeys)
    (String.toList_injective (List.append_cancel_right hvalues))

theorem length_le_count (entries : List (String × String)) :
    entries.length ≤ (entries.flatMap entryChars).count '=' := by
  induction entries with
  | nil => exact Nat.zero_le _
  | cons e entries ih =>
    have hone : 0 < (entryChars e).count '=' := List.count_pos_iff.mpr (by simp [entryChars])
    rw [List.flatMap_cons, List.count_append, List.length_cons]
    omega

/-- With one equals sign there is one entry at most, and it is known. -/
theorem flatMap_entryChars_injective {es es' : List (String × String)}
    (hone : (es.flatMap entryChars).count '=' ≤ 1)
    (h : es.flatMap entryChars = es'.flatMap entryChars) : es = es' := by
  have hlength := (length_le_count es).trans hone
  have hlength' := (length_le_count es').trans (h ▸ hone)
  have hne : ∀ e, entryChars e ≠ [] := by simp [entryChars]
  match es, es', hlength, hlength' with
  | [], [], _, _ => rfl
  | [], [e'], _, _ => exact absurd (List.append_eq_nil_iff.mp h.symm).1 (hne e')
  | [e], [], _, _ => exact absurd (List.append_eq_nil_iff.mp h).1 (hne e)
  | [e], [e'], _, _ =>
    rw [List.flatMap_singleton] at h hone
    rw [entryChars_injective hone (h.trans (List.flatMap_singleton _ _))]

theorem perm_of_bodyChars {p q : Properties} (hp : IsMap p) (hq : IsMap q)
    (hone : (bodyChars p).count '=' ≤ 1) (h : bodyChars p = bodyChars q) : p.Perm q :=
  (Dictionary.ofList_eq_iff hp hq).mp (flatMap_entryChars_injective hone h)

/-- Each section has one equals sign at most, and the header of the second one stands at one place
only between what can be sections. -/
structure Unmistakable (connection cache : Properties) : Prop where
  oneConnection : (bodyChars connection).count '=' ≤ 1
  oneCache : (bodyChars cache).count '=' ≤ 1
  oneHeader : ∀ before behind, IsBody before → IsBody behind →
    before ++ (header "cache" ++ behind) =
      bodyChars connection ++ (header "cache" ++ bodyChars cache) → before = bodyChars connection

/-- Without properties there is nothing to be mistaken. -/
theorem unmistakable_empty : Unmistakable [] [] where
  oneConnection := Nat.zero_le 1
  oneCache := Nat.zero_le 1
  oneHeader := by
    intro before behind _ _ he
    have hlength := congrArg List.length he
    simp only [List.length_append] at hlength
    have hnone : (bodyChars []).length = 0 := rfl
    exact List.eq_nil_of_length_eq_zero (by omega)

theorem Unmistakable.perm_of_chars (h : Unmistakable connection cache)
    (hmap : IsMap connection ∧ IsMap cache) (hmap' : IsMap connection' ∧ IsMap cache')
    (he : configurationChars connection cache = configurationChars connection' cache') :
    connection.Perm connection' ∧ cache.Perm cache' := by
  have hbodies := configurationChars_eq_iff.mp he
  have hfirst : bodyChars connection' = bodyChars connection :=
    h.oneHeader _ _ (isBody_bodyChars connection') (isBody_bodyChars cache') hbodies.symm
  rw [hfirst] at hbodies
  have hsecond := List.append_cancel_left (List.append_cancel_left hbodies)
  exact ⟨perm_of_bodyChars hmap.1 hmap'.1 h.oneConnection hfirst.symm,
    perm_of_bodyChars hmap.2 hmap'.2 h.oneCache hsecond⟩

/-- A configuration that is not unmistakable shares its text with another one. -/
theorem exists_other_configuration (hmap : IsMap connection ∧ IsMap cache)
    (h : ¬ Unmistakable connection cache) : ∃ connection' cache',
      (IsMap connection' ∧ IsMap cache') ∧
      configurationChars connection cache = configurationChars connection' cache' ∧
      ¬ (connection.Perm connection' ∧ cache.Perm cache') := by
  by_cases hconnection : (bodyChars connection).count '=' ≤ 1
  swap
  · obtain ⟨q, hq, hsame, hne⟩ := exists_other_map connection (Nat.lt_of_not_le hconnection)
    exact ⟨q, cache, ⟨hq, hmap.2⟩, configurationChars_eq_iff.mpr (by rw [hsame]),
      fun hperm => hne hperm.1⟩
  by_cases hcache : (bodyChars cache).count '=' ≤ 1
  swap
  · obtain ⟨q, hq, hsame, hne⟩ := exists_other_map cache (Nat.lt_of_not_le hcache)
    exact ⟨connection, q, ⟨hmap.1, hq⟩, configurationChars_eq_iff.mpr (by rw [hsame]),
      fun hperm => hne hperm.2⟩
  by_contra hnone
  refine h ⟨hconnection, hcache, fun before behind hbefore hbehind he => ?_⟩
  -- the sections that the header separates there are those of a configuration
  obtain ⟨p, hp, rfl⟩ := exists_map_of_isBody hbefore
  obtain ⟨q, hq, rfl⟩ := exists_map_of_isBody hbehind
  by_contra hne
  exact hnone ⟨p, q, ⟨hp, hq⟩, configurationChars_eq_iff.mpr he.symm,
    fun hperm => hne (bodyChars_congr hmap.1 hperm.1).symm⟩

/-! ### What the name tells -/

/-- The order of the properties does not matter for the name of a configuration. As far as the
digest tells two texts apart, the name tells both maps, where the configuration is unmistakable or
the separators of both configurations can be told from their keys and values. A configuration that
is not unmistakable has its name in common with another one. -/
theorem sessionId_identifies (connection cache : Properties) (hconnection : IsMap connection)
    (hcache : IsMap cache) :
    (∀ connection' cache', connection.Perm connection' → cache.Perm cache' →
      sessionId connection cache = sessionId connection' cache') ∧
    (∀ connection' cache', IsMap connection' → IsMap cache' →
      (Unmistakable connection cache ∨ (Plain connection cache ∧ Plain connection' cache')) →
      Distinguishes (configurationBytes connection cache)
        (configurationBytes connection' cache') →
      (sessionId connection cache = sessionId connection' cache' ↔
        connection.Perm connection' ∧ cache.Perm cache')) ∧
    (¬ Unmistakable connection cache → ∃ connection' cache',
      (IsMap connection' ∧ IsMap cache') ∧
      sessionId connection cache = sessionId connection' cache' ∧
      ¬ (connection.Perm connection' ∧ cache.Perm cache')) := by
  have hmap : IsMap connection ∧ IsMap cache := ⟨hconnection, hcache⟩
  have hsame : ∀ connection' cache', connection.Perm connection' → cache.Perm cache' →
      sessionId connection cache = sessionId connection' cache' := by
    intro connection' cache' h h'
    apply sessionId_congr
    rw [configurationChars, bodyChars_congr hconnection h, bodyChars_congr hcache h']
    rfl
  refine ⟨hsame, fun connection' cache' hconnection' hcache' hread hdistinct => ⟨fun h => ?_,
    fun h => hsame connection' cache' h.1 h.2⟩, fun h => ?_⟩
  · have hchars := configurationChars_of_sessionId hdistinct h
    rcases hread with hone | ⟨hplain, hplain'⟩
    · exact hone.perm_of_chars hmap ⟨hconnection', hcache'⟩ hchars
    · exact hplain.perm_of_chars hplain' hmap ⟨hconnection', hcache'⟩ hchars
  · obtain ⟨connection', cache', hmap', hchars, hne⟩ := exists_other_configuration hmap h
    exact ⟨connection', cache', hmap', sessionId_congr hchars, hne⟩

/-- A property does not change sections, and is not added, without changing the name. -/
theorem sections_told_apart :
    sessionId [("PLAY", "true")] [] ≠ sessionId [] [("PLAY", "true")] ∧
      sessionId [] [] ≠ sessionId [] [("PLAY", "true")] := by
  have hplay : IsMap [("PLAY", "true")] := isMap_singleton _
  constructor
  · obtain ⟨-, htold, -⟩ := sessionId_identifies [("PLAY", "true")] [] hplay List.nodup_nil
    have hplain : Plain [("PLAY", "true")] [] := ⟨by decide, by decide⟩
    have hplain' : Plain [] [("PLAY", "true")] := ⟨by decide, by decide⟩
    have hdistinct : Distinguishes (configurationBytes [("PLAY", "true")] [])
        (configurationBytes [] [("PLAY", "true")]) := fun h => absurd h (by decide +kernel)
    intro h
    have hperm := (htold [] [("PLAY", "true")] List.nodup_nil hplay (.inr ⟨hplain, hplain'⟩)
      hdistinct).mp h
    exact absurd hperm.1.length_eq (by decide)
  · obtain ⟨-, htold, -⟩ := sessionId_identifies [] [] List.nodup_nil List.nodup_nil
    have hdistinct : Distinguishes (configurationBytes [] [])
        (configurationBytes [] [("PLAY", "true")]) := fun h => absurd h (by decide +kernel)
    intro h
    have hperm := (htold [] [("PLAY", "true")] List.nodup_nil hplay (.inl unmistakable_empty)
      hdistinct).mp h
    exact absurd hperm.2.length_eq (by decide)

/-- An equals sign in a key is taken for the one that ends it. -/
theorem separator_in_key_collides :
    sessionId [("a", "b=c")] [("PLAY", "true")] = sessionId [("a=b", "c")] [("PLAY", "true")] ∧
      IsMap [("a", "b=c")] ∧ IsMap [("a=b", "c")] ∧ IsMap [("PLAY", "true")] ∧
      ¬ List.Perm [("a", "b=c")] [("a=b", "c")] :=
  ⟨sessionId_congr rfl, isMap_singleton _, isMap_singleton _, isMap_singleton _, by decide⟩

end OlapClient.Digest

import OlapClient.Cache.Capture
import OlapClient.Proofs.Cache.Record
import OlapClient.Proofs.Files

/-!
# Captures, loaded again

The lines that a capture has written are loaded as the records that they were made of, and of the
records of one key the last one is found.
-/

namespace OlapClient

/-! ### Indexes -/

namespace ExchangeIndex

variable (index : ExchangeIndex) (key other : ExchangeKey) (response : Bytes)

theorem find?_cons (entry : ExchangeKey × Bytes) :
    find? (entry :: index) key = if key = entry.1 then some entry.2 else find? index key := by
  obtain ⟨found, response⟩ := entry
  rw [find?, find?, List.lookup_cons]
  by_cases hkey : key = found
  · rw [if_pos hkey, beq_iff_eq.mpr hkey]
  · rw [if_neg hkey, beq_eq_false_iff_ne.mpr hkey]

theorem find?_filter (h : other ≠ key) :
    find? (index.filter fun entry => entry.1 != key) other = find? index other := by
  induction index with
  | nil => rfl
  | cons entry index ih =>
    rw [List.filter_cons]
    split
    · rw [find?_cons, find?_cons, ih]
    · rename_i hentry
      have hkey : entry.1 = key := by simpa using hentry
      rw [ih, find?_cons, if_neg (hkey ▸ h)]

@[simp] theorem find?_insert_self : find? (insert index key response) key = some response := by
  rw [insert, find?_cons, if_pos rfl]

theorem find?_insert_of_ne (h : other ≠ key) :
    find? (insert index key response) other = find? index other := by
  rw [insert, find?_cons, if_neg h, find?_filter index key other h]

/-- The index of exchanges in the order in which they were stored. -/
def ofExchanges (exchanges : List (ExchangeKey × Bytes)) : ExchangeIndex :=
  exchanges.foldl (fun index entry => insert index entry.1 entry.2) []

theorem ofExchanges_concat (exchanges : List (ExchangeKey × Bytes)) :
    ofExchanges (exchanges ++ [(key, response)]) =
      insert (ofExchanges exchanges) key response := by
  rw [ofExchanges, ofExchanges, List.foldl_append]
  rfl

/-- The last exchange of a key counts, and without one what the index held before. -/
theorem find?_foldl_insert {exchanges : List (ExchangeKey × Bytes)} {key : ExchangeKey}
    {last : Option (ExchangeKey × Bytes)}
    (h : LastOf (fun entry => entry.1 = key) exchanges last) :
    find? (exchanges.foldl (fun index entry => insert index entry.1 entry.2) index) key =
      (last.map (·.2)).or (find? index key) := by
  -- exchanges are stored in order, so the induction adds the last one
  induction exchanges using List.reverseRecOn generalizing last with
  | nil =>
    rw [lastOf_nil_iff.mp h]
    rfl
  | append_singleton exchanges entry ih =>
    obtain ⟨key', response⟩ := entry
    rw [List.foldl_append]
    show find? (insert _ key' response) key = _
    by_cases hkey : key' = key
    · rw [h.eq_of_concat hkey, hkey, find?_insert_self]
      rfl
    · rw [find?_insert_of_ne _ _ _ _ (Ne.symm hkey), ih (h.of_concat hkey)]

theorem find?_ofExchanges {exchanges : List (ExchangeKey × Bytes)} {key : ExchangeKey}
    {last : Option (ExchangeKey × Bytes)}
    (h : LastOf (fun entry => entry.1 = key) exchanges last) :
    find? (ofExchanges exchanges) key = last.map (·.2) := by
  rw [ofExchanges, find?_foldl_insert [] h]
  exact Option.or_none

end ExchangeIndex

namespace Record

/-- The exchange that a record holds. -/
def exchange (r : Record) : ExchangeKey × Bytes := ((r.url, r.key), r.response)

end Record

namespace Capture

/-! ### Lines -/

theorem lines_append (current front rest : Bytes) (h : ∀ b ∈ front, b ≠ 0x0A) :
    lines current (front ++ 0x0A :: rest) = (current.reverse ++ front) :: lines [] rest := by
  induction front generalizing current with
  | nil => rw [List.nil_append, lines, if_pos rfl, List.append_nil]
  | cons b front ih =>
    rw [List.cons_append, lines, if_neg (h b List.mem_cons_self),
      ih (b :: current) fun b' hb' => h b' (List.mem_cons_of_mem b hb'), List.reverse_cons,
      List.append_assoc]
    rfl

theorem no_lineEnd (r : Record) (b : UInt8) (hb : b ∈ Utf8.encodeChars r.chars) : b ≠ 0x0A := by
  rintro rfl
  have hmem := (Utf8.byte_mem_encodeChars '\n' (by decide) r.chars).mp hb
  exact absurd (r.visible_of_mem '\n' hmem).1 (by decide)

theorem lineBytes_eq (r : Record) : lineBytes r = Utf8.encodeChars r.chars ++ [0x0A] := by
  rw [lineBytes, Utf8.encodeChars_append]
  rfl

/-- Each record is a line of its own. -/
theorem lines_lineBytes (records : List Record) :
    lines [] (records.flatMap lineBytes) = records.map fun r => Utf8.encodeChars r.chars := by
  induction records with
  | nil => rfl
  | cons r records ih =>
    rw [List.flatMap_cons, lineBytes_eq, List.append_assoc]
    show lines [] (_ ++ 0x0A :: records.flatMap lineBytes) = _
    rw [lines_append [] _ _ (no_lineEnd r), ih]
    rfl

theorem trimReturns_of_last (cs : List Char) (h : ∀ c ∈ cs.reverse.head?, c ≠ '\r') :
    trimReturns (String.ofList cs) = String.ofList cs := by
  have hkept : cs.reverse.dropWhile (· = '\r') = cs.reverse := by
    cases hchars : cs.reverse with
    | nil => rfl
    | cons c rest =>
      rw [hchars] at h
      exact List.dropWhile_cons_of_neg (by simpa using h c rfl)
  rw [trimReturns, String.toList_ofList, hkept, List.reverse_reverse]

theorem no_return_at_end (r : Record) (c : Char) (hc : c ∈ r.chars.reverse.head?) : c ≠ '\r' := by
  rintro rfl
  have hmem := List.mem_reverse.mp (List.mem_of_mem_head? hc)
  exact absurd (r.visible_of_mem '\r' hmem).1 (by decide)

theorem trimReturns_encode (r : Record) : trimReturns r.encode = r.encode :=
  trimReturns_of_last r.chars (no_return_at_end r)

theorem encode_not_empty (r : Record) : r.encode.isEmpty = false := by
  rw [Record.encode, Bool.eq_false_iff]
  intro hempty
  exact r.chars_ne_nil (by simpa using hempty)

/-! ### Loading -/

theorem loadLines_cons (path : String) (number : Nat) (index : ExchangeIndex) (r : Record)
    (rest : List Bytes) :
    loadLines path number index (Utf8.encodeChars r.chars :: rest) =
      match Record.decode r.encode with
      | .error fault => .error (.format path number fault)
      | .ok record => loadLines path (number + 1)
          (index.insert (record.url, record.key) record.response) rest := by
  have hline : Utf8.decode? (Utf8.encodeChars r.chars) = some r.encode := by
    rw [Utf8.decode?_encodeChars]
    rfl
  rw [loadLines, hline]
  cases hdecode : Record.decode r.encode with
  | error fault =>
    simp only [trimReturns_encode, encode_not_empty, hdecode, Bool.false_eq_true, if_false]
  | ok record =>
    simp only [trimReturns_encode, encode_not_empty, hdecode, Bool.false_eq_true, if_false]

/-- Lines of records are loaded as their exchanges, unless one of them cannot be read. -/
theorem loadLines_records (path : String) (number : Nat) (index loaded : ExchangeIndex)
    (records : List Record)
    (h : loadLines path number index (records.map fun r => Utf8.encodeChars r.chars) =
      .ok loaded) :
    loaded = (records.map Record.exchange).foldl
      (fun index entry => index.insert entry.1 entry.2) index := by
  induction records generalizing number index with
  | nil => exact (Except.ok.inj h).symm
  | cons r records ih =>
    rw [List.map_cons, loadLines_cons] at h
    by_cases hdated : r.IsDated
    · rw [Record.decode_encode r hdated] at h
      exact ih _ _ h
    · obtain ⟨fault, hfault⟩ := r.decode_undated hdated
      rw [hfault] at h
      cases h

theorem loadLines_dated (path : String) (number : Nat) (index : ExchangeIndex)
    (records : List Record) (h : ∀ r ∈ records, r.IsDated) :
    ∃ loaded, loadLines path number index (records.map fun r => Utf8.encodeChars r.chars) =
      .ok loaded := by
  induction records generalizing number index with
  | nil => exact ⟨index, rfl⟩
  | cons r records ih =>
    rw [List.map_cons, loadLines_cons, Record.decode_encode r (h r List.mem_cons_self)]
    exact ih _ _ fun r' hr' => h r' (List.mem_cons_of_mem r hr')

/-- A file of records of four-digit years can be loaded where it may be read. -/
theorem load_dated {files : Files} {path : String} {place : Place} {records : List Record}
    (h : files.Stands path place (records.flatMap lineBytes))
    (hreading : (files.guard place).reading = none) (hdated : ∀ r ∈ records, r.IsDated) :
    ∃ index, (load files path).2 = .ok index := by
  obtain ⟨index, hlines⟩ := loadLines_dated path 1 [] records hdated
  refine ⟨index, ?_⟩
  unfold load
  rw [h.read hreading]
  simp only [lines_lineBytes, hlines]

/-- What was loaded could be read. -/
theorem readable_of_load {files : Files} {path : String} {place : Place} {content : Bytes}
    {index : ExchangeIndex} (h : files.Stands path place content)
    (hload : (load files path).2 = .ok index) : (files.guard place).reading = none := by
  cases hreading : (files.guard place).reading with
  | none => rfl
  | some why =>
    rw [load, h.read_denied hreading] at hload
    cases hload

/-- A file of records is loaded as the index of their exchanges. -/
theorem load_records {files : Files} {path : String} {place : Place} {records : List Record}
    {index : ExchangeIndex} (h : files.Stands path place (records.flatMap lineBytes))
    (hload : (load files path).2 = .ok index) :
    index = ExchangeIndex.ofExchanges (records.map Record.exchange) := by
  have hreading := readable_of_load h hload
  unfold load at hload
  rw [h.read hreading] at hload
  simp only [lines_lineBytes] at hload
  cases hlines : loadLines path 1 [] (records.map fun r => Utf8.encodeChars r.chars) with
  | error e =>
    rw [hlines] at hload
    cases hload
  | ok loaded =>
    rw [hlines] at hload
    cases hload
    exact loadLines_records path 1 [] _ records hlines

end Capture

end OlapClient

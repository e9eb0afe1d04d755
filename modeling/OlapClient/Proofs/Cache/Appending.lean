import Mathlib.Data.List.TakeWhile
import OlapClient.Proofs.Cache.Recorder

/-!
# Captures that are appended to

Records are written right behind what is in the file. After a content that ends where a line ends
they are lines of their own, and the file is loaded as the index in memory. After an unfinished
line the first record becomes a part of that line, which then cannot be read any more.
-/

namespace OlapClient

/-! ### Separators in a line -/

namespace Record

theorem fields_of_decode {line : String} {r : Record} (h : decode line = .ok r) :
    ∃ found, fields line.toList = .ok found := by
  unfold decode at h
  cases hfields : fields line.toList with
  | error left =>
    simp only [hfields] at h
    cases h
  | ok found => exact ⟨found, rfl⟩

theorem count_chars_pos (r : Record) : 0 < r.chars.count separator := by
  apply List.count_pos_iff.mpr
  unfold chars
  simp only [List.append_assoc, List.cons_append, List.mem_append, List.mem_cons, true_or, or_true]

/-- A stamp does not start with a carriage return. -/
theorem fields_return (cs : List Char) : ∃ left, fields ('\r' :: cs) = .error left := by
  have hnone : ∀ rest, Stamp.parseChars ('\r' :: rest) = none := fun rest => rfl
  have hfront : ('\r' :: cs).takeWhile (· ≠ separator) = '\r' :: cs.takeWhile (· ≠ separator) :=
    List.takeWhile_cons_of_pos (by decide)
  rw [fields, stampField, hfront, hnone]
  exact ⟨_, rfl⟩

end Record

namespace Capture

/-! ### Lines that can be loaded -/

/-- The text of a line that is blank or holds a record. -/
def Loads (line : Bytes) (text : String) : Prop :=
  line = Utf8.encode text ∧
    ((trimReturns text).isEmpty = true ∨ ∃ record, Record.decode (trimReturns text) = .ok record)

theorem loads_of_loadLines {path : String} {number : Nat} {index loaded : ExchangeIndex}
    {line : Bytes} {rest : List Bytes}
    (h : loadLines path number index (line :: rest) = .ok loaded) : ∃ text, Loads line text := by
  rw [loadLines] at h
  cases htext : Utf8.decode? line with
  | none =>
    rw [htext] at h
    cases h
  | some text =>
    refine ⟨text, Utf8.eq_encode_of_decode? line text htext, ?_⟩
    rw [htext] at h
    by_cases hempty : (trimReturns text).isEmpty = true
    · exact .inl hempty
    · simp only [if_neg hempty] at h
      cases hdecode : Record.decode (trimReturns text) with
      | ok record => exact .inr ⟨record, rfl⟩
      | error fault =>
        rw [hdecode] at h
        cases h

theorem trimReturns_and_rest (text : String) :
    ∃ n, text.toList = (trimReturns text).toList ++ List.replicate n '\r' := by
  have hcut : ∀ c ∈ text.toList.reverse.takeWhile (· = '\r'), c = '\r' := by
    intro c hc
    simpa using List.mem_takeWhile_imp hc
  refine ⟨(text.toList.reverse.takeWhile (· = '\r')).length, ?_⟩
  rw [trimReturns, String.toList_ofList, ← List.reverse_replicate,
    ← List.eq_replicate_of_mem hcut, ← List.reverse_append, List.takeWhile_append_dropWhile,
    List.reverse_reverse]

/-- A record right behind a line that could be loaded makes a line that cannot. -/
theorem not_loads_joined {line : Bytes} {text joined : String} (h : Loads line text)
    (hline : line ≠ []) (r : Record) : ¬ Loads (line ++ Utf8.encodeChars r.chars) joined := by
  obtain ⟨rfl, htext⟩ := h
  rintro ⟨hjoined, hloads⟩
  rw [Utf8.encode, ← Utf8.encodeChars_append] at hjoined
  have hchars : text.toList ++ r.chars = joined.toList :=
    Utf8.encodeChars_injective _ _ hjoined
  obtain rfl : joined = String.ofList (text.toList ++ r.chars) := by
    rw [hchars, String.ofList_toList]
  have hlast : ∀ c ∈ (text.toList ++ r.chars).reverse.head?, c ≠ '\r' := by
    intro c hc
    rw [List.reverse_append, List.head?_append_of_ne_nil _ (by simpa using r.chars_ne_nil)] at hc
    exact no_return_at_end r c hc
  rw [trimReturns_of_last _ hlast] at hloads
  have hne : (String.ofList (text.toList ++ r.chars)).isEmpty = false := by
    rw [Bool.eq_false_iff]
    intro hempty
    have hnil : text.toList ++ r.chars = [] := by simpa using hempty
    exact r.chars_ne_nil (List.append_eq_nil_iff.mp hnil).2
  obtain hempty | ⟨record, hrecord⟩ := hloads
  · rw [hne] at hempty
    cases hempty
  · obtain ⟨found, hfound⟩ := Record.fields_of_decode hrecord
    rw [String.toList_ofList] at hfound
    obtain ⟨n, hreturns⟩ := trimReturns_and_rest text
    obtain hblank | ⟨before, hbefore⟩ := htext
    · -- the line was nothing but carriage returns
      have hnil : (trimReturns text).toList = [] := by simpa using hblank
      rw [hnil, List.nil_append] at hreturns
      cases n with
      | zero =>
        apply hline
        rw [Utf8.encode, hreturns]
        rfl
      | succ n =>
        rw [hreturns, List.replicate_succ, List.cons_append] at hfound
        obtain ⟨left, hleft⟩ := Record.fields_return (List.replicate n '\r' ++ r.chars)
        rw [hleft] at hfound
        cases hfound
    · -- the line was a record, so that there are too many separators
      obtain ⟨found', hfound'⟩ := Record.fields_of_decode hbefore
      have hthree := Record.count_of_fields hfound'
      have hmore := Record.count_of_fields hfound
      have hpos := r.count_chars_pos
      rw [hreturns, List.count_append, List.count_append] at hmore
      omega

/-! ### Contents and what is appended -/

/-- There is no line that was begun and not ended. -/
def EndsLine (content : Bytes) : Prop := ∀ b ∈ content.getLast?, b = 0x0A

theorem split_at_line (content : Bytes) :
    ∃ front tail, content = front ++ tail ∧ EndsLine front ∧ ∀ b ∈ tail, b ≠ 0x0A := by
  induction content using List.reverseRecOn with
  | nil => exact ⟨[], [], rfl, by simp [EndsLine], by simp⟩
  | append_singleton content b ih =>
    by_cases hb : b = 0x0A
    · refine ⟨content ++ [b], [], by simp, ?_, by simp⟩
      intro b' hb'
      rw [List.getLast?_concat] at hb'
      exact (Option.some.inj hb') ▸ hb
    · obtain ⟨front, tail, rfl, hfront, htail⟩ := ih
      refine ⟨front, tail ++ [b], by simp, hfront, ?_⟩
      intro b' hb'
      rcases List.mem_append.mp hb' with hb' | hb'
      · exact htail b' hb'
      · exact List.mem_singleton.mp hb' ▸ hb

theorem lines_end (current front rest : Bytes) :
    lines current (front ++ 0x0A :: rest) = lines current (front ++ [0x0A]) ++ lines [] rest := by
  induction front generalizing current with
  | nil =>
    show lines current (0x0A :: rest) = lines current [0x0A] ++ _
    rw [lines, lines, if_pos rfl, if_pos rfl]
    rfl
  | cons b front ih =>
    rw [List.cons_append, List.cons_append, lines, lines]
    split
    · rw [ih, List.cons_append]
    · exact ih (b :: current)

theorem lines_behind (content rest : Bytes) (h : EndsLine content) :
    lines [] (content ++ rest) = lines [] content ++ lines [] rest := by
  rcases List.eq_nil_or_concat' content with rfl | ⟨front, b, rfl⟩
  · rfl
  · obtain rfl : b = 0x0A := h b (by simp)
    rw [List.append_assoc]
    exact lines_end [] front rest

theorem lines_unended (current line : Bytes) (h : ∀ b ∈ line, b ≠ 0x0A)
    (hne : current.reverse ++ line ≠ []) : lines current line = [current.reverse ++ line] := by
  induction line generalizing current with
  | nil =>
    rw [List.append_nil] at hne ⊢
    rw [lines, if_neg (by simpa using hne)]
  | cons b line ih =>
    have hreverse : current.reverse ++ b :: line = (b :: current).reverse ++ line := by simp
    rw [hreverse] at hne ⊢
    rw [lines, if_neg (h b List.mem_cons_self)]
    exact ih _ (fun b' hb' => h b' (List.mem_cons_of_mem b hb')) hne

theorem loadLines_append (path : String) (number : Nat) (index : ExchangeIndex)
    (front rest : List Bytes) :
    loadLines path number index (front ++ rest) =
      (loadLines path number index front).bind fun loaded =>
        loadLines path (number + front.length) loaded rest := by
  induction front generalizing number index with
  | nil => rfl
  | cons line front ih =>
    have hnumber : number + (line :: front).length = number + 1 + front.length := by
      rw [List.length_cons]
      omega
    rw [List.cons_append, loadLines, loadLines, hnumber]
    cases Utf8.decode? line with
    | none => rfl
    | some text =>
      by_cases hempty : (trimReturns text).isEmpty = true
      · simp only [if_pos hempty]
        exact ih (number + 1) index
      · simp only [if_neg hempty]
        cases Record.decode (trimReturns text) with
        | error fault => rfl
        | ok record => exact ih (number + 1) _

/-- The content of a file that can be loaded. -/
def LoadsAs (path : String) (content : Bytes) (index : ExchangeIndex) : Prop :=
  loadLines path 1 [] (lines [] content) = .ok index

theorem dated_of_loadLines {path : String} {number : Nat} {index loaded : ExchangeIndex}
    {records : List Record}
    (h : loadLines path number index (records.map fun r => Utf8.encodeChars r.chars) =
      .ok loaded) (r : Record) (hr : r ∈ records) : r.IsDated := by
  induction records generalizing number index with
  | nil => cases hr
  | cons first records ih =>
    rw [List.map_cons, loadLines_cons] at h
    by_cases hdated : first.IsDated
    · rw [Record.decode_encode first hdated] at h
      rcases List.mem_cons.mp hr with rfl | hr
      · exact hdated
      · exact ih h hr
    · obtain ⟨fault, hfault⟩ := first.decode_undated hdated
      rw [hfault] at h
      cases h

variable {path : String} {content : Bytes} {index : ExchangeIndex}

theorem not_loadsAs_unended (h : LoadsAs path content index) (hends : ¬ EndsLine content)
    (r : Record) (rest : Bytes) (loaded : ExchangeIndex) :
    ¬ LoadsAs path (content ++ (lineBytes r ++ rest)) loaded := by
  obtain ⟨front, tail, rfl, hfront, htail⟩ := split_at_line content
  have htail_ne : tail ≠ [] := by
    rintro rfl
    rw [List.append_nil] at hends
    exact hends hfront
  intro hloaded
  unfold LoadsAs at h hloaded
  have hclear : ∀ b ∈ tail ++ Utf8.encodeChars r.chars, b ≠ 0x0A := by
    intro b hb
    rcases List.mem_append.mp hb with hb | hb
    · exact htail b hb
    · exact no_lineEnd r b hb
  have hjoined : lines [] (tail ++ (lineBytes r ++ rest)) =
      (tail ++ Utf8.encodeChars r.chars) :: lines [] rest := by
    have hcut := lines_append [] _ rest hclear
    rw [List.append_assoc] at hcut
    rw [lineBytes_eq, List.append_assoc]
    exact hcut
  rw [lines_behind _ _ hfront, lines_unended [] tail htail htail_ne, loadLines_append] at h
  rw [List.append_assoc, lines_behind _ _ hfront, hjoined, loadLines_append] at hloaded
  cases hlines : loadLines path 1 [] (lines [] front) with
  | error e =>
    rw [hlines] at h
    cases h
  | ok before =>
    rw [hlines] at h hloaded
    obtain ⟨text, htext⟩ := loads_of_loadLines h
    obtain ⟨joined, hbad⟩ := loads_of_loadLines hloaded
    exact not_loads_joined htext htail_ne r hbad

/-- What was loaded before is loaded with records behind it just if they are lines of their own that
can be read. -/
theorem loadsAs_appended_iff (h : LoadsAs path content index) (records : List Record)
    (loaded : ExchangeIndex) :
    LoadsAs path (content ++ records.flatMap lineBytes) loaded ↔
      (records = [] ∨ EndsLine content ∧ ∀ r ∈ records, r.IsDated) ∧
        loaded = (records.map Record.exchange).foldl
          (fun index entry => index.insert entry.1 entry.2) index := by
  by_cases hends : EndsLine content
  · have hlines : lines [] (content ++ records.flatMap lineBytes) =
        lines [] content ++ records.map fun r => Utf8.encodeChars r.chars := by
      rw [lines_behind _ _ hends, lines_lineBytes]
    unfold LoadsAs at h ⊢
    rw [hlines, loadLines_append, h]
    constructor
    · intro hloaded
      exact ⟨.inr ⟨hends, dated_of_loadLines hloaded⟩,
        loadLines_records path _ index loaded records hloaded⟩
    · rintro ⟨hcase, rfl⟩
      have hdated : ∀ r ∈ records, r.IsDated := by
        obtain rfl | ⟨-, hdated⟩ := hcase
        · simp
        · exact hdated
      obtain ⟨found, hfound⟩ :=
        loadLines_dated path (1 + (lines [] content).length) index records hdated
      rw [← loadLines_records path _ index found records hfound]
      exact hfound
  · cases records with
    | nil =>
      rw [List.flatMap_nil, List.append_nil]
      unfold LoadsAs at h ⊢
      rw [h, Except.ok.injEq, eq_comm]
      simp
    | cons r records =>
      rw [List.flatMap_cons]
      constructor
      · intro hloaded
        exact absurd hloaded (not_loadsAs_unended h hends r _ loaded)
      · rintro ⟨hnil | ⟨hline, -⟩, -⟩
        · cases hnil
        · exact absurd hline hends

/-! ### Files that are opened again -/

/-- The path names the file at this place, which has this content, and it may be read and written.
-/
structure Available (files : Files) (path : String) (place : Place) (content : Bytes) : Prop where
  stands : files.Stands path place content
  reading : (files.guard place).reading = none
  writing : (files.guard place).writing = none

variable {files : Files} {place : Place} {output : Option String}

theorem Available.append (h : Available files path place content) (bytes : Bytes) :
    Available (files.write place none bytes) path place (content ++ bytes) where
  stands := h.stands.append bytes
  reading := by rw [Files.guard_write, h.reading]
  writing := by rw [Files.guard_write, h.writing]

theorem load_eq_ok (h : Available files path place content) :
    (load files path).2 = .ok index ↔ LoadsAs path content index := by
  unfold load LoadsAs
  rw [h.stands.read h.reading]
  cases hlines : loadLines path 1 [] (lines [] content) with
  | error e => simp only [hlines, reduceCtorEq]
  | ok loaded => simp only [hlines]

theorem openFiles_again (h : Available files path place content)
    (houtput : output = none ∨ output = some path) :
    ∃ opened, (openFiles files ⟨some path, output⟩ false).2 =
      (files, (load files path).2.map fun index => ⟨index, opened⟩) := by
  have hopened : ∃ events opened,
      openOutput files false output = (events, .ok (files, opened)) := by
    rcases houtput with rfl | rfl
    · exact ⟨[], none, rfl⟩
    · simp only [openOutput, h.stands.openOutput_self h.writing]
      exact ⟨_, _, rfl⟩
  obtain ⟨events, opened, hopened⟩ := hopened
  refine ⟨opened, ?_⟩
  unfold openFiles
  rw [hopened]

theorem again_iff (index : ExchangeIndex) (h : Available files path place content)
    (houtput : output = none ∨ output = some path) :
    (∃ again, (openFiles files ⟨some path, output⟩ false).2.2 = .ok again ∧ again.index = index) ↔
      LoadsAs path content index := by
  obtain ⟨opened, hopened⟩ := openFiles_again h houtput
  rw [hopened, ← load_eq_ok h]
  constructor
  · rintro ⟨again, hagain, rfl⟩
    obtain ⟨loaded, hload, rfl⟩ := map_eq_ok.mp hagain
    exact hload
  · intro hload
    exact ⟨⟨index, opened⟩, map_eq_ok.mpr ⟨index, hload, rfl⟩, rfl⟩

/-- A file that was opened to be read and to be appended to can be read and written. -/
theorem opened_to_append {opened : Files} {c : Capture}
    (h : (openFiles files ⟨some path, some path⟩ false).2 = (opened, .ok c)) :
    ∃ place content, Available opened path place content ∧
      c.output = some ⟨place, none, []⟩ ∧ LoadsAs path content c.index := by
  obtain ⟨houtput, hload⟩ := Recorder.openFiles_eq_ok _ _ c h
  obtain ⟨place, hplace, hposition⟩ := Recorder.openOutput_some _ _ houtput
  obtain ⟨content, hstands⟩ := Files.stands_of_opened hplace
  have havailable : Available opened path place content :=
    ⟨hstands, readable_of_load hstands (hload path rfl), Files.writable_of_opened hplace⟩
  exact ⟨place, content, havailable, hposition, (load_eq_ok havailable).mp (hload path rfl)⟩

/-! ### Storing -/

/-- Stores the exchanges of records, one after the other. -/
def storeAll (c : Capture) (records : List Record) : Except CacheError Capture :=
  records.foldlM (fun c r => c.store r.recordedAt (r.url, r.key) r.response) c

theorem storeAll_eq (c : Capture) (output : CaptureOutput) (h : c.output = some output)
    (records : List Record) :
    c.storeAll records = .ok {
      index := (records.map Record.exchange).foldl
        (fun index entry => index.insert entry.1 entry.2) c.index
      output := some { output with buffer := output.buffer ++ records.flatMap lineBytes } } := by
  induction records generalizing c output with
  | nil =>
    obtain ⟨index, _⟩ := c
    obtain rfl := h
    rw [List.flatMap_nil, List.append_nil]
    rfl
  | cons r records ih =>
    have hstore : c.store r.recordedAt (r.url, r.key) r.response = .ok {
        index := c.index.insert (r.url, r.key) r.response
        output := some { output with buffer := output.buffer ++ lineBytes r } } := by
      rw [store, h]
    rw [storeAll, List.foldlM_cons, hstore]
    show storeAll _ records = _
    rw [ih _ _ rfl, List.flatMap_cons, List.append_assoc]
    rfl

theorem find?_stored (index : ExchangeIndex) {key : ExchangeKey} {records : List Record}
    {last : Option Record} (h : LastOf (fun r => (r.url, r.key) = key) records last) :
    ExchangeIndex.find? ((records.map Record.exchange).foldl
        (fun index entry => index.insert entry.1 entry.2) index) key =
      (last.map (·.response)).or (index.find? key) := by
  have hlast : LastOf (fun entry : ExchangeKey × Bytes => entry.1 = key)
      (records.map Record.exchange) (last.map Record.exchange) := h.map Record.exchange
  rw [ExchangeIndex.find?_foldl_insert index hlast, Option.map_map]
  rfl

/-- Exchanges can be stored in a capture whose input is also its output, and the last one of a key
counts. When they were written, the file can be opened again just if nothing was stored, or if the
content ended with a line end and all records are dated; and then it is loaded as the index in
memory. -/
theorem reopens_iff {opened : Files} {c : Capture}
    (hopen : (openFiles files ⟨some path, some path⟩ false).2 = (opened, .ok c))
    (records : List Record) :
    ∃ content after, opened.read path = .ok content ∧ c.storeAll records = .ok after ∧
      (∀ key last, LastOf (fun r => (r.url, r.key) = key) records last →
        after.lookup key = (last.map (·.response)).or (c.lookup key)) ∧
      ∀ output, output = none ∨ output = some path →
        ((∃ again, (openFiles (after.flush opened).1 ⟨some path, output⟩ false).2.2 = .ok again) ↔
          records = [] ∨ EndsLine content ∧ ∀ r ∈ records, r.IsDated) ∧
        ∀ again, (openFiles (after.flush opened).1 ⟨some path, output⟩ false).2.2 = .ok again →
          again.index = after.index := by
  obtain ⟨place, content, havailable, houtput, hloads⟩ := opened_to_append hopen
  refine ⟨content, _, havailable.stands.read havailable.reading,
    c.storeAll_eq _ houtput records,
    fun key last hlast => find?_stored c.index hlast, fun output houtput => ?_⟩
  rw [List.nil_append]
  have hagain := fun index =>
    again_iff index (havailable.append (records.flatMap lineBytes)) houtput
  constructor
  · constructor
    · rintro ⟨again, hopened⟩
      have hloaded := (hagain again.index).mp ⟨again, hopened, rfl⟩
      exact ((loadsAs_appended_iff hloads records _).mp hloaded).1
    · intro hcase
      have hloaded := (loadsAs_appended_iff hloads records _).mpr ⟨hcase, rfl⟩
      obtain ⟨again, hopened, -⟩ := (hagain _).mpr hloaded
      exact ⟨again, hopened⟩
  · intro again hopened
    have hloaded := (hagain again.index).mp ⟨again, hopened, rfl⟩
    exact ((loadsAs_appended_iff hloads records _).mp hloaded).2

/-! ### A file of one record -/

/-- A record of the first second of 1970. -/
def loneRecord : Record := ⟨.epoch, "u", Text.ascii "q", Text.ascii "r"⟩

theorem loneRecord_dated : loneRecord.IsDated := by
  show (0 : Int) ≤ 1970 ∧ (1970 : Int) ≤ 9999
  omega

/-- A file and nothing else. -/
def filesWith (content : Bytes) : Files where
  entries := ⟨[([Text.ascii "f"], .file content)]⟩

theorem filesWith_available (content : Bytes) :
    Available (filesWith content) "f" [Text.ascii "f"] content where
  stands := ⟨rfl, rfl, rfl⟩
  reading := rfl
  writing := rfl

theorem filesWith_opened (h : LoadsAs "f" content index) :
    ∃ c, (openFiles (filesWith content) ⟨some "f", some "f"⟩ false).2 =
      (filesWith content, .ok c) := by
  obtain ⟨opened, hopened⟩ := openFiles_again (filesWith_available content) (.inr rfl)
  rw [(load_eq_ok (filesWith_available content)).mpr h] at hopened
  exact ⟨_, hopened⟩

theorem line_reopened :
    ∃ c after again,
      (openFiles (filesWith (lineBytes loneRecord)) ⟨some "f", some "f"⟩ false).2 =
        (filesWith (lineBytes loneRecord), .ok c) ∧
      c.storeAll [loneRecord] = .ok after ∧
      (openFiles (after.flush (filesWith (lineBytes loneRecord))).1 ⟨some "f", none⟩ false).2.2 =
        .ok again ∧
      again.index = after.index := by
  have hnothing : LoadsAs "f" [] [] := rfl
  have hloads : LoadsAs "f" (lineBytes loneRecord) [loneRecord.exchange] :=
    (loadsAs_appended_iff hnothing [loneRecord] _).mpr
      ⟨.inr ⟨by simp [EndsLine], by simpa using loneRecord_dated⟩, rfl⟩
  have hends : EndsLine (lineBytes loneRecord) := by
    rw [lineBytes_eq]
    simp [EndsLine]
  obtain ⟨c, hopened⟩ := filesWith_opened hloads
  obtain ⟨content, after, hcontent, hstored, -, hagain⟩ := reopens_iff hopened [loneRecord]
  rw [(filesWith_available _).stands.read rfl] at hcontent
  obtain rfl := Except.ok.inj hcontent
  obtain ⟨hiff, hindex⟩ := hagain none (.inl rfl)
  obtain ⟨again, hreopened⟩ := hiff.mpr (.inr ⟨hends, by simpa using loneRecord_dated⟩)
  exact ⟨c, after, again, hopened, hstored, hreopened, hindex again hreopened⟩

/-- A file whose only line was not ended can be opened, and after an exchange was stored it cannot
be opened again. -/
theorem unended_line_not_reopened :
    ∃ c after,
      (openFiles (filesWith (Utf8.encodeChars loneRecord.chars)) ⟨some "f", some "f"⟩ false).2 =
        (filesWith (Utf8.encodeChars loneRecord.chars), .ok c) ∧
      c.storeAll [loneRecord] = .ok after ∧
      ∀ again, (openFiles (after.flush (filesWith (Utf8.encodeChars loneRecord.chars))).1
        ⟨some "f", none⟩ false).2.2 ≠ .ok again := by
  obtain ⟨index, hindex⟩ := loadLines_dated "f" 1 [] [loneRecord] (by simpa using loneRecord_dated)
  have hne : Utf8.encodeChars loneRecord.chars ≠ [] :=
    Utf8.encodeChars_ne_nil _ loneRecord.chars_ne_nil
  have hloads : LoadsAs "f" (Utf8.encodeChars loneRecord.chars) index := by
    unfold LoadsAs
    rw [lines_unended [] _ (no_lineEnd loneRecord) hne]
    exact hindex
  have hends : ¬ EndsLine (Utf8.encodeChars loneRecord.chars) := by
    intro h
    apply no_lineEnd loneRecord _ (List.getLast_mem hne)
    exact h _ (List.getLast?_eq_some_getLast hne)
  obtain ⟨c, hopened⟩ := filesWith_opened hloads
  obtain ⟨place, content, havailable, houtput, -⟩ := opened_to_append hopened
  refine ⟨c, _, hopened, c.storeAll_eq _ houtput [loneRecord], fun again hagain => ?_⟩
  obtain rfl : Utf8.encodeChars loneRecord.chars = content :=
    Except.ok.inj (((filesWith_available _).stands.read rfl).symm.trans
      (havailable.stands.read havailable.reading))
  have hloaded := (again_iff _ (havailable.append _) (.inl rfl)).mp ⟨again, hagain, rfl⟩
  exact not_loadsAs_unended hloads hends loneRecord [] _ hloaded

end Capture

end OlapClient

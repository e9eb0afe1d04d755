import OlapClient.Proofs.Markup.Tags

/-!
# Reading the marks of a document

Between two marks the reader holds back the character data it has read until the next `<`, so a
place there is given by the tree once that data is heard (`Stands`). Character data, sections,
comments and tags each lead from such a place to another one, whatever follows them (`Leads`).
-/

namespace OlapClient.Markup

open Rendering

namespace Builder

/-- Character data belongs to the innermost open element. -/
def hear (b : Builder) (text : List Char) : Builder :=
  match b.stack with
  | [] => b
  | e :: outer => { b with stack := e.addText (String.ofList text) :: outer }

@[simp] theorem hear_nil (b : Builder) : b.hear [] = b := by
  obtain ⟨stack, root⟩ := b
  cases stack with
  | nil => rfl
  | cons e outer =>
    have htext : e.addText (String.ofList []) = e := by
      cases e
      simp [Element.addText]
    change Builder.mk (e.addText (String.ofList []) :: outer) root = _
    rw [htext]

theorem hear_append (b : Builder) (text more : List Char) :
    (b.hear text).hear more = b.hear (text ++ more) := by
  obtain ⟨stack, root⟩ := b
  cases stack with
  | nil => rfl
  | cons e outer => simp [hear, Element.addText, String.append_assoc]

theorem add_text (b : Builder) (written heard : List Char) (h : Escaped ['<'] written heard) :
    b.add (.text (Utf8.encodeChars written)) = .ok (b.hear heard) := by
  obtain ⟨stack, root⟩ := b
  cases stack with
  | nil => rfl
  | cons e outer =>
    simp only [add, h.decodeText]
    rfl

theorem add_characterData (b : Builder) (heard : List Char) :
    b.add (.characterData (Utf8.encodeChars heard)) = .ok (b.hear heard) := by
  obtain ⟨stack, root⟩ := b
  cases stack with
  | nil => rfl
  | cons e outer => simp only [add, hear, Utf8.decodeLossy_encodeChars]

end Builder

namespace Rendering

/-! ### One byte that completes nothing -/

section Steps

variable (names : List Bytes) (read : Bytes) (before : Nat) (byte : UInt8)

theorem step_text (h : byte ≠ Text.byte '<') :
    Reader.step ⟨.text read, names⟩ before byte = .ok (none, ⟨.text (byte :: read), names⟩) :=
  if_neg h

/-- The first byte of a start tag is read like the others. -/
theorem step_markup (h : byte ≠ Text.byte '!' ∧ byte ≠ Text.byte '?' ∧ byte ≠ Text.byte '/') :
    Reader.step ⟨.markup, names⟩ before byte = Reader.step ⟨.tag [] none, names⟩ before byte := by
  simp only [Reader.step, if_neg h.1, if_neg h.2.1, if_neg h.2.2]
  rfl

theorem step_tag (quote : Option UInt8) (h : quote ≠ none ∨ byte ≠ Text.byte '>') :
    Reader.step ⟨.tag read quote, names⟩ before byte =
      .ok (none, ⟨.tag (byte :: read) (quoteAfter quote byte), names⟩) := by
  have hopen : ¬ (quote.isNone && byte = Text.byte '>') = true := by
    simpa [or_iff_not_imp_left] using h
  exact if_neg hopen

theorem step_endTag (h : byte ≠ Text.byte '>' ∧ byte ≠ Text.byte '"' ∧ byte ≠ Text.byte '\'') :
    Reader.step ⟨.endTag read none, names⟩ before byte =
      .ok (none, ⟨.endTag (byte :: read) none, names⟩) := by
  simp [Reader.step, quoteAfter, h, Reader.enter]

theorem step_instruction (h : byte ≠ Text.byte '>') :
    Reader.step ⟨.instruction read, names⟩ before byte =
      .ok (none, ⟨.instruction (byte :: read), names⟩) := by
  simp [Reader.step, h, Reader.enter]

theorem step_comment (h : byte = Text.byte '>' → read.length ≤ 4 ∨ ¬ Text.ascii "--" <+: read) :
    Reader.step ⟨.comment read, names⟩ before byte =
      .ok (none, ⟨.comment (byte :: read), names⟩) := by
  refine if_neg ?_
  simp only [Bool.and_eq_true, decide_eq_true_eq, List.isPrefixOf_iff_prefix]
  rintro ⟨⟨rfl, hlength⟩, hprefix⟩
  rcases h rfl with h | h
  · omega
  · exact h hprefix

theorem step_characterData (h : byte = Text.byte '>' → ¬ Text.ascii "]]" <+: read) :
    Reader.step ⟨.characterData read, names⟩ before byte =
      .ok (none, ⟨.characterData (byte :: read), names⟩) := by
  refine if_neg ?_
  simp only [Bool.and_eq_true, decide_eq_true_eq, List.isPrefixOf_iff_prefix]
  rintro ⟨rfl, hprefix⟩
  exact h rfl hprefix

end Steps

/-! ### Runs of the reader -/

/-- Bytes take the reader and the tree from one state to another, whatever follows them. -/
def Runs (bytes : Bytes) (r : Reader) (b : Builder) (r' : Reader) (b' : Builder) : Prop :=
  ∀ before rest, readFrom before r b (bytes ++ rest) = readFrom (before + bytes.length) r' b' rest

theorem Runs.nil (r : Reader) (b : Builder) : Runs [] r b r b := fun _ _ => rfl

theorem Runs.trans {bytes bytes' : Bytes} {r r' r'' : Reader} {b b' b'' : Builder}
    (h : Runs bytes r b r' b') (h' : Runs bytes' r' b' r'' b'') :
    Runs (bytes ++ bytes') r b r'' b'' := by
  intro before rest
  rw [List.append_assoc, h, h', List.length_append, Nat.add_assoc]

theorem readFrom_step (before : Nat) (r r' : Reader) (b b' : Builder) (token? : Option Token)
    (byte : UInt8) (bytes : Bytes) (hstep : r.step before byte = .ok (token?, r'))
    (hadd : b.add? token? = .ok b') :
    readFrom before r b (byte :: bytes) = readFrom (before + 1) r' b' bytes := by
  rw [readFrom, hstep]
  change (b.add? token?).bind (fun b => readFrom (before + 1) r' b bytes) = _
  rw [hadd]
  rfl

theorem Runs.one {byte : UInt8} {r r' : Reader} {b b' : Builder} (token? : Option Token)
    (hstep : ∀ before, r.step before byte = .ok (token?, r')) (hadd : b.add? token? = .ok b') :
    Runs [byte] r b r' b' :=
  fun before rest => readFrom_step before r r' b b' token? byte rest (hstep before) hadd

/-- While bytes are only collected, the tree stays as it is. -/
theorem Runs.collect (mode : Bytes → Mode) (names : List Bytes) (b : Builder) (bytes read : Bytes)
    (h : ∀ front byte behind, bytes = front ++ byte :: behind → ∀ before,
      Reader.step ⟨mode (front.reverse ++ read), names⟩ before byte =
        .ok (none, ⟨mode (byte :: (front.reverse ++ read)), names⟩)) :
    Runs bytes ⟨mode read, names⟩ b ⟨mode (bytes.reverse ++ read), names⟩ b := by
  induction bytes generalizing read with
  | nil => exact .nil _ b
  | cons byte bytes ih =>
    have hone : Runs [byte] ⟨mode read, names⟩ b ⟨mode (byte :: read), names⟩ b :=
      .one none (h [] byte bytes rfl) rfl
    have hrest := ih (byte :: read) (by
      intro front byte' behind heq before
      have hlater := h (byte :: front) byte' behind (by rw [heq]; rfl) before
      simpa using hlater)
    have hrun := hone.trans hrest
    simpa using hrun

theorem Runs.collect_until (mode : Bytes → Mode) (stop : UInt8) (names : List Bytes)
    (hstep : ∀ read before byte, byte ≠ stop →
      Reader.step ⟨mode read, names⟩ before byte = .ok (none, ⟨mode (byte :: read), names⟩))
    (b : Builder) (bytes read : Bytes) (h : stop ∉ bytes) :
    Runs bytes ⟨mode read, names⟩ b ⟨mode (bytes.reverse ++ read), names⟩ b := by
  refine .collect mode names b bytes read ?_
  rintro front byte behind rfl before
  refine hstep _ before byte ?_
  rintro rfl
  exact h (List.mem_append_right front List.mem_cons_self)

/-! ### Places between marks -/

/-- The reader is in character data, `names` are open, and the tree is `b` once that data is
heard. -/
def Stands (names : List Bytes) (b : Builder) (r : Reader) (b₀ : Builder) : Prop :=
  ∃ written heard, Escaped ['<'] written heard ∧
    r = ⟨.text (Utf8.encodeChars written).reverse, names⟩ ∧ b₀.hear heard = b

/-- Bytes lead from one such place to another, whatever follows them. -/
def Leads (bytes : Bytes) (names : List Bytes) (b : Builder) (names' : List Bytes) (b' : Builder) :
    Prop :=
  ∀ before r b₀ rest, Stands names b r b₀ → ∃ r' b₁, Stands names' b' r' b₁ ∧
    readFrom before r b₀ (bytes ++ rest) = readFrom (before + bytes.length) r' b₁ rest

theorem stands_start (names : List Bytes) (b : Builder) : Stands names b ⟨.text [], names⟩ b :=
  ⟨[], [], .nil, rfl, b.hear_nil⟩

/-- The character data that was held back, if there is any. -/
theorem add_held (b : Builder) (written heard : List Char) (h : Escaped ['<'] written heard) :
    b.add? (if (Utf8.encodeChars written).reverse.isEmpty then none
      else some (.text (Utf8.encodeChars written).reverse.reverse)) = .ok (b.hear heard) := by
  rw [List.reverse_reverse]
  split
  · rename_i hempty
    have hnil : Utf8.encodeChars written = [] := by simpa using hempty
    obtain rfl := Utf8.encodeChars_injective written [] hnil
    cases h
    rw [b.hear_nil]
    rfl
  · exact b.add_text written heard h

/-- A mark completes the character data before it. -/
theorem Stands.mark {names : List Bytes} {b : Builder} {r : Reader} {b₀ : Builder}
    (h : Stands names b r b₀) (before : Nat) (bytes : Bytes) :
    readFrom before r b₀ (Text.byte '<' :: bytes) =
      readFrom (before + 1) ⟨.markup, names⟩ b bytes := by
  obtain ⟨written, heard, hescaped, rfl, rfl⟩ := h
  exact readFrom_step before _ _ b₀ _ _ _ bytes rfl (add_held b₀ written heard hescaped)

theorem Stands.finish {names : List Bytes} {b : Builder} {r : Reader} {b₀ : Builder}
    (h : Stands names b r b₀) (before : Nat) : readFrom before r b₀ [] = b.finish := by
  obtain ⟨written, heard, hescaped, rfl, rfl⟩ := h
  have hadd := add_held b₀ written heard hescaped
  change (b₀.add? (if (Utf8.encodeChars written).reverse.isEmpty then none
    else some (.text (Utf8.encodeChars written).reverse.reverse))).bind Builder.finish = _
  rw [hadd]
  rfl

theorem Leads.nil (names : List Bytes) (b : Builder) : Leads [] names b names b :=
  fun _ r b₀ _ h => ⟨r, b₀, h, rfl⟩

theorem Leads.trans {bytes bytes' : Bytes} {names names' names'' : List Bytes} {b b' b'' : Builder}
    (h : Leads bytes names b names' b') (h' : Leads bytes' names' b' names'' b'') :
    Leads (bytes ++ bytes') names b names'' b'' := by
  intro before r b₀ rest hs
  obtain ⟨r', b₁, hs', heq⟩ := h before r b₀ (bytes' ++ rest) hs
  obtain ⟨r'', b₂, hs'', heq'⟩ := h' (before + bytes.length) r' b₁ rest hs'
  refine ⟨r'', b₂, hs'', ?_⟩
  rw [List.append_assoc, heq, heq', List.length_append, Nat.add_assoc]

theorem leads_mark {bytes : Bytes} {names names' : List Bytes} {b b' : Builder}
    (h : Runs bytes ⟨.markup, names⟩ b ⟨.text [], names'⟩ b') :
    Leads (Text.byte '<' :: bytes) names b names' b' := by
  intro before r b₀ rest hs
  refine ⟨_, b', stands_start names' b', ?_⟩
  rw [List.cons_append, hs.mark, h, List.length_cons, Nat.add_assoc, Nat.add_comm 1]

/-! ### Character data, sections and comments -/

theorem leads_text (written heard : List Char) (h : Escaped ['<'] written heard)
    (names : List Bytes) (b : Builder) :
    Leads (Utf8.encodeChars written) names b names (b.hear heard) := by
  have hopening : Text.byte '<' ∉ Utf8.encodeChars written := fun hmem =>
    h.not_mem '<' List.mem_cons_self (by decide)
      ((Utf8.byte_mem_encodeChars '<' (by decide) written).mp hmem)
  rintro before r b₀ rest ⟨written₀, heard₀, h₀, rfl, rfl⟩
  have hrun : Runs (Utf8.encodeChars written) ⟨.text (Utf8.encodeChars written₀).reverse, names⟩ b₀
      ⟨.text ((Utf8.encodeChars written).reverse ++ (Utf8.encodeChars written₀).reverse), names⟩
      b₀ := by
    exact .collect_until Mode.text (Text.byte '<') names
      (fun read before byte hb => step_text names read before byte hb) b₀ _ _ hopening
  refine ⟨_, b₀, ⟨written₀ ++ written, heard₀ ++ heard, h₀.append _ _ h, rfl, ?_⟩, ?_⟩
  · rw [Builder.hear_append]
  · rw [hrun, Utf8.encodeChars_append, List.reverse_append]

theorem prefix_in_front (mark : UInt8) (front read : Bytes)
    (hread : 2 ≤ front.length ∨ read.head? ≠ some mark) (h : [mark, mark] <+: front ++ read) :
    ∃ before, front = mark :: mark :: before := by
  cases front with
  | nil =>
    obtain ⟨rest, rfl⟩ := h
    simp at hread
  | cons first front =>
    obtain ⟨rfl, hsecond⟩ := List.cons_prefix_cons.mp h
    cases front with
    | nil =>
      obtain ⟨rest, hrest⟩ := hsecond
      obtain rfl : read = mark :: rest := hrest.symm
      simp at hread
    | cons second front =>
      obtain ⟨hmark, -⟩ := List.cons_prefix_cons.mp hsecond
      exact ⟨front, by rw [hmark]⟩

/-- A `>` behind two marks among the bytes of a text. -/
theorem closing_occurs (mark : Char) (hmark : mark.toNat < 128) (text : List Char)
    (front behind before : Bytes) (h : Utf8.encodeChars text = front ++ Text.byte '>' :: behind)
    (hfront : front.reverse = Text.byte mark :: Text.byte mark :: before) :
    [mark, mark, '>'] <:+: text := by
  have hascii : ∀ c ∈ [mark, mark, '>'], c.toNat < 128 := by
    intro c hc
    simp only [List.mem_cons, List.not_mem_nil, or_false] at hc
    rcases hc with rfl | rfl | rfl
    · exact hmark
    · exact hmark
    · decide
  have hsplit : front = before.reverse ++ [Text.byte mark, Text.byte mark] := by
    rw [← List.reverse_reverse front, hfront]
    simp
  refine Utf8.infix_of_ascii mark [mark, '>'] hascii text before.reverse behind ?_
  rw [h, hsplit]
  simp

theorem runs_characterData (names : List Bytes) (b : Builder) (bytes read : Bytes)
    (h : Text.byte '>' ∉ bytes) : Runs bytes ⟨.characterData read, names⟩ b
      ⟨.characterData (bytes.reverse ++ read), names⟩ b :=
  .collect_until Mode.characterData (Text.byte '>') names
    (fun read before byte hb => step_characterData names read before byte (absurd · hb))
      b bytes read h

theorem runs_dashes (names : List Bytes) (b : Builder) (bytes read : Bytes)
    (h : Text.byte '>' ∉ bytes) : Runs bytes ⟨.comment read, names⟩ b
      ⟨.comment (bytes.reverse ++ read), names⟩ b :=
  .collect_until Mode.comment (Text.byte '>') names
    (fun read before byte hb => step_comment names read before byte (absurd · hb)) b bytes read h

theorem runs_section (names : List Bytes) (b : Builder) (heard : List Char)
    (h : ¬ sectionClosing <:+: heard) :
    Runs (Utf8.encodeChars heard) ⟨.characterData (Text.ascii "![CDATA[").reverse, names⟩ b
      ⟨.characterData ((Utf8.encodeChars heard).reverse ++ (Text.ascii "![CDATA[").reverse), names⟩
      b := by
  refine .collect Mode.characterData names b _ _ ?_
  intro front byte behind heq before
  refine step_characterData names _ before byte ?_
  rintro rfl hprefix
  obtain ⟨before', hfront⟩ := prefix_in_front (Text.byte ']') _ _ (.inr (by decide)) hprefix
  exact h (closing_occurs ']' (by decide) heard front behind before' heq hfront)

theorem runs_comment (names : List Bytes) (b : Builder) (body : List Char)
    (h : ¬ commentClosing <:+: body) :
    Runs (Utf8.encodeChars body) ⟨.comment (Text.ascii "!--").reverse, names⟩ b
      ⟨.comment ((Utf8.encodeChars body).reverse ++ (Text.ascii "!--").reverse), names⟩ b := by
  refine .collect Mode.comment names b _ _ ?_
  intro front byte behind heq before
  refine step_comment names _ before byte ?_
  rintro rfl
  -- The dashes of the opening do not close a comment.
  rcases Nat.lt_or_ge front.length 2 with hlength | hlength
  · have hopening : (Text.ascii "!--").length = 3 := by decide
    simp only [List.length_append, List.length_reverse]
    omega
  · refine .inr fun hprefix => ?_
    obtain ⟨before', hfront⟩ :=
      prefix_in_front (Text.byte '-') _ _ (.inl (by simpa using hlength)) hprefix
    exact h (closing_occurs '-' (by decide) body front behind before' heq hfront)

theorem step_section_done (heard : Bytes) (names : List Bytes) (before : Nat) :
    Reader.step ⟨.characterData ((Text.ascii "]]").reverse ++
      (heard.reverse ++ (Text.ascii "![CDATA[").reverse)), names⟩ before (Text.byte '>') =
      .ok (some (.characterData heard), ⟨.text [], names⟩) := by
  simp [Reader.step, Reader.characterDataDone, Text.ascii, Text.byte, List.isPrefixOf,
    Reader.complete]

theorem step_comment_done (body : Bytes) (names : List Bytes) (before : Nat) :
    Reader.step ⟨.comment ((Text.ascii "--").reverse ++
      (body.reverse ++ (Text.ascii "!--").reverse)), names⟩ before (Text.byte '>') =
      .ok (some .aside, ⟨.text [], names⟩) := by
  simp [Reader.step, Reader.commentDone, Text.ascii, Text.byte, List.isPrefixOf, Reader.complete]

theorem leads_section (heard : List Char) (h : ¬ sectionClosing <:+: heard) (names : List Bytes)
    (b : Builder) :
    Leads (Utf8.encodeChars (sectionOpening ++ (heard ++ sectionClosing))) names b names
      (b.hear heard) := by
  have hbytes : Utf8.encodeChars (sectionOpening ++ (heard ++ sectionClosing)) = Text.byte '<' ::
      ([Text.byte '!'] ++ ([Text.byte '['] ++ (Text.ascii "CDATA[" ++ (Utf8.encodeChars heard ++
        (Text.ascii "]]" ++ [Text.byte '>']))))) := by
    rw [Utf8.encodeChars_append, Utf8.encodeChars_append,
      Utf8.encodeChars_ascii sectionOpening (forall_of_all _ (by decide)),
      Utf8.encodeChars_ascii sectionClosing (forall_of_all _ (by decide))]
    rfl
  rw [hbytes]
  apply leads_mark
  refine .trans (.one none (fun _ => rfl) rfl) (.trans (.one none (fun _ => rfl) rfl) ?_)
  refine .trans (runs_characterData names b _ _ (by decide)) ?_
  refine .trans (runs_section names b heard h) ?_
  refine .trans (runs_characterData names b _ _ (by decide)) ?_
  exact .one _ (step_section_done _ names) (b.add_characterData heard)

theorem leads_comment (body : List Char) (h : ¬ commentClosing <:+: body) (names : List Bytes)
    (b : Builder) :
    Leads (Utf8.encodeChars (commentOpening ++ (body ++ commentClosing))) names b names b := by
  have hbytes : Utf8.encodeChars (commentOpening ++ (body ++ commentClosing)) = Text.byte '<' ::
      ([Text.byte '!'] ++ ([Text.byte '-'] ++ (Text.ascii "-" ++ (Utf8.encodeChars body ++
        (Text.ascii "--" ++ [Text.byte '>']))))) := by
    rw [Utf8.encodeChars_append, Utf8.encodeChars_append,
      Utf8.encodeChars_ascii commentOpening (forall_of_all _ (by decide)),
      Utf8.encodeChars_ascii commentClosing (forall_of_all _ (by decide))]
    rfl
  rw [hbytes]
  apply leads_mark
  refine .trans (.one none (fun _ => rfl) rfl) (.trans (.one none (fun _ => rfl) rfl) ?_)
  refine .trans (runs_dashes names b _ _ (by decide)) ?_
  refine .trans (runs_comment names b body h) ?_
  refine .trans (runs_dashes names b _ _ (by decide)) ?_
  exact .one _ (step_comment_done _ names) rfl

/-- The declaration before the root element is such an instruction. -/
theorem leads_instruction (body : List Char) (h : '>' ∉ body) (names : List Bytes) (b : Builder) :
    Leads (Utf8.encodeChars ('<' :: '?' :: (body ++ ['?', '>']))) names b names b := by
  have hbytes : Utf8.encodeChars ('<' :: '?' :: (body ++ ['?', '>'])) = Text.byte '<' ::
      ([Text.byte '?'] ++ (Utf8.encodeChars body ++ ([Text.byte '?'] ++ [Text.byte '>']))) := by
    rw [Utf8.encodeChars_cons_ascii '<' (by decide), Utf8.encodeChars_cons_ascii '?' (by decide),
      Utf8.encodeChars_append]
    rfl
  have hclosing : Text.byte '>' ∉ Utf8.encodeChars body := fun hmem =>
    h ((Utf8.byte_mem_encodeChars '>' (by decide) body).mp hmem)
  have hbody : Runs (Utf8.encodeChars body) ⟨.instruction [Text.byte '?'], names⟩ b
      ⟨.instruction ((Utf8.encodeChars body).reverse ++ [Text.byte '?']), names⟩ b :=
    .collect_until Mode.instruction (Text.byte '>') names
      (fun read before byte hb => step_instruction names read before byte hb) b _ _ hclosing
  have hdone : ∀ before, Reader.step ⟨.instruction (Text.byte '?' ::
      ((Utf8.encodeChars body).reverse ++ [Text.byte '?'])), names⟩ before (Text.byte '>') =
        .ok (some .aside, ⟨.text [], names⟩) := by
    intro before
    simp [Reader.step, Reader.complete]
  rw [hbytes]
  apply leads_mark
  refine .trans (.one none (fun _ => rfl) rfl) (.trans hbody ?_)
  refine .trans (.one none (fun _ => ?_) rfl) (.one _ hdone rfl)
  exact step_instruction names _ _ _ (by decide)

/-! ### Start tags -/

/-- Bytes of a tag: every `>` stands between quotes, and no quote is left open. -/
inductive Guarded : Bytes → Prop where
  | nil : Guarded []
  | plain (b : UInt8) (bytes : Bytes)
      (hb : b ≠ Text.byte '>' ∧ b ≠ Text.byte '"' ∧ b ≠ Text.byte '\'') (h : Guarded bytes) :
      Guarded (b :: bytes)
  | quoted (quote : UInt8) (value bytes : Bytes)
      (hq : quote = Text.byte '"' ∨ quote = Text.byte '\'') (hv : quote ∉ value)
      (h : Guarded bytes) : Guarded (quote :: (value ++ quote :: bytes))

theorem Guarded.append {bytes bytes' : Bytes} (h : Guarded bytes) (h' : Guarded bytes') :
    Guarded (bytes ++ bytes') := by
  induction h with
  | nil => exact h'
  | plain b bytes hb _ ih => exact .plain b _ hb ih
  | quoted quote value bytes hq hv _ ih =>
    have hstep := Guarded.quoted quote value _ hq hv ih
    simpa using hstep

theorem guarded_of_plain (bytes : Bytes)
    (h : ∀ b ∈ bytes, b ≠ Text.byte '>' ∧ b ≠ Text.byte '"' ∧ b ≠ Text.byte '\'') :
    Guarded bytes := by
  induction bytes with
  | nil => exact .nil
  | cons b bytes ih =>
    exact .plain b bytes (h b List.mem_cons_self)
      (ih fun b' hb' => h b' (List.mem_cons_of_mem b hb'))

theorem Guarded.runs {bytes : Bytes} (h : Guarded bytes) (names : List Bytes) (b : Builder)
    (read : Bytes) :
    Runs bytes ⟨.tag read none, names⟩ b ⟨.tag (bytes.reverse ++ read) none, names⟩ b := by
  induction h generalizing read with
  | nil => exact .nil _ b
  | plain byte bytes hb _ ih =>
    have hquote : quoteAfter none byte = none := by simp [quoteAfter, hb]
    have hone : Runs [byte] ⟨.tag read none, names⟩ b ⟨.tag (byte :: read) none, names⟩ b := by
      refine .one none (fun before => ?_) rfl
      rw [step_tag names read before byte none (.inr hb.1), hquote]
    simpa using hone.trans (ih (byte :: read))
  | quoted quote value bytes hq hv _ ih =>
    have hopens : quoteAfter none quote = some quote := by simp [quoteAfter, hq]
    have hcloses : quoteAfter (some quote) quote = none := by simp [quoteAfter]
    have hne : quote ≠ Text.byte '>' := by rcases hq with rfl | rfl <;> decide
    have hopen : Runs [quote] ⟨.tag read none, names⟩ b ⟨.tag (quote :: read) (some quote), names⟩
        b := by
      refine .one none (fun before => ?_) rfl
      rw [step_tag names read before quote none (.inr hne), hopens]
    have hvalue : Runs value ⟨.tag (quote :: read) (some quote), names⟩ b
        ⟨.tag (value.reverse ++ quote :: read) (some quote), names⟩ b := by
      refine .collect_until (Mode.tag · (some quote)) quote names ?_ b value _ hv
      intro read before byte hb
      have hinside : quoteAfter (some quote) byte = some quote := if_neg hb
      rw [step_tag names read before byte (some quote) (.inl (by simp)), hinside]
    have hclose : Runs [quote] ⟨.tag (value.reverse ++ quote :: read) (some quote), names⟩ b
        ⟨.tag (quote :: (value.reverse ++ quote :: read)) none, names⟩ b := by
      refine .one none (fun before => ?_) rfl
      rw [step_tag names _ before quote (some quote) (.inl (by simp)), hcloses]
    simpa using hopen.trans (hvalue.trans (hclose.trans (ih _)))

theorem plain_bytes (cs : List Char) (h : '>' ∉ cs ∧ '"' ∉ cs ∧ '\'' ∉ cs) :
    ∀ b ∈ Utf8.encodeChars cs, b ≠ Text.byte '>' ∧ b ≠ Text.byte '"' ∧ b ≠ Text.byte '\'' := by
  obtain ⟨hclosing, hdouble, hsingle⟩ := h
  refine fun b hb => ⟨?_, ?_, ?_⟩ <;> rintro rfl
  · exact hclosing ((Utf8.byte_mem_encodeChars '>' (by decide) cs).mp hb)
  · exact hdouble ((Utf8.byte_mem_encodeChars '"' (by decide) cs).mp hb)
  · exact hsingle ((Utf8.byte_mem_encodeChars '\'' (by decide) cs).mp hb)

theorem guarded_encodeChars (cs : List Char) (h : '>' ∉ cs ∧ '"' ∉ cs ∧ '\'' ∉ cs) :
    Guarded (Utf8.encodeChars cs) :=
  guarded_of_plain _ (plain_bytes cs h)

theorem Spaces.not_mem {gap : List Char} (h : Spaces gap) (c : Char) (hc : c ∉ spaces) : c ∉ gap :=
  fun hmem => hc (h c hmem)

theorem Spaces.guarded {gap : List Char} (h : Spaces gap) : Guarded (Utf8.encodeChars gap) :=
  guarded_encodeChars gap
    ⟨h.not_mem '>' (by decide), h.not_mem '"' (by decide), h.not_mem '\'' (by decide)⟩

theorem guarded_key (key : List Char) (h : Unmarked key) :
    Guarded (Utf8.encodeChars key) :=
  guarded_encodeChars key ⟨fun hc => h _ hc (by decide), fun hc => h _ hc (by decide),
    fun hc => h _ hc (by decide)⟩

theorem Equals.guarded {equals : List Char} (h : Equals equals) :
    Guarded (Utf8.encodeChars equals) := by
  obtain ⟨before, behind, hbefore, hbehind⟩ := h
  rw [Utf8.encodeChars_append, Utf8.encodeChars_cons_ascii '=' (by decide)]
  exact hbefore.guarded.append (.plain _ _ (by decide) hbehind.guarded)

theorem guarded_attribute (gap key equals : List Char) (quote : Char) (raw rest : List Char)
    (hg : Spaces gap) (hkey : Unmarked key) (he : Equals equals) (hq : IsQuote quote)
    (hv : quote ∉ raw) (h : Guarded (Utf8.encodeChars rest)) :
    Guarded (Utf8.encodeChars (gap ++ (key ++ (equals ++ quote :: (raw ++ quote :: rest))))) := by
  have hquoted := Guarded.quoted (Text.byte quote) (Utf8.encodeChars raw) _ hq.byte
    (not_quote_mem quote hq raw hv) h
  simp only [Utf8.encodeChars_append, Utf8.encodeChars_cons_ascii quote hq.ascii]
  exact hg.guarded.append ((guarded_key key hkey).append (he.guarded.append hquoted))

namespace Attributes

variable {attributes : List (String × String)} {declared : List (List Char)} {raw : List Char}

theorem guarded (h : Attributes attributes declared raw)
    (hn : ∀ a ∈ attributes, IsName a.1.toList) : Guarded (Utf8.encodeChars raw) := by
  induction h with
  | done gap hg => exact hg.guarded
  | named gap name key equals quote raw value attributes declared rest _ hg hk he hq hv _ ih =>
    have hrest := ih fun a ha => hn a (List.mem_cons_of_mem _ ha)
    exact guarded_attribute gap key equals quote raw rest hg
      (hk.unmarked (hn _ List.mem_cons_self)) he hq (hv.quote_not_mem hq) hrest
  | declaring gap key equals quote raw attributes declared rest _ hg hk he hq hv _ ih =>
    exact guarded_attribute gap key equals quote raw rest hg hk.unmarked he hq hv (ih hn)

/-- A tag that closes at once is told from others by its last character. -/
theorem last (h : Attributes attributes declared raw) : raw.getLast? ≠ some '/' := by
  have hquoted : ∀ (front : List Char) (quote : Char) (rest : List Char), IsQuote quote →
      rest.getLast? ≠ some '/' → (front ++ quote :: rest).getLast? ≠ some '/' := by
    intro front quote rest hq hrest hlast
    cases rest with
    | nil =>
      rcases hq with rfl | rfl <;> simp at hlast
    | cons c rest =>
      exact hrest (by simpa using hlast)
  induction h with
  | done gap hg =>
    intro hlast
    exact absurd (hg '/' (List.mem_of_getLast? hlast)) (by decide)
  | named gap name key equals quote raw _ _ _ rest _ _ _ _ hq _ _ ih =>
    have hend := hquoted (gap ++ (key ++ (equals ++ quote :: raw))) quote rest hq ih
    simpa using hend
  | declaring gap key equals quote raw _ _ rest _ _ _ _ hq _ _ ih =>
    have hend := hquoted (gap ++ (key ++ (equals ++ quote :: raw))) quote rest hq ih
    simpa using hend

end Attributes

namespace Tag

variable {name : String} {attributes : List (String × String)} {key tag : List Char}

theorem guarded (h : Tag name attributes key tag) (hn : IsName name.toList)
    (ha : ∀ a ∈ attributes, IsName a.1.toList) : Guarded (Utf8.encodeChars tag) := by
  obtain ⟨declared, rest, hk, hd, hattributes⟩ := h
  rw [Utf8.encodeChars_append]
  exact (guarded_key key (hk.unmarked hn)).append (hattributes.guarded ha)

theorem last (h : Tag name attributes key tag) (hn : IsName name.toList) :
    tag.getLast? ≠ some '/' := by
  obtain ⟨declared, rest, hk, hd, hattributes⟩ := h
  intro hlast
  cases rest with
  | nil =>
    rw [List.append_nil] at hlast
    exact hk.unmarked hn '/' (List.mem_of_getLast? hlast) (by decide)
  | cons c rest => exact hattributes.last (by simpa using hlast)

/-- The bytes of a tag from the last one on, as the reader holds them. -/
theorem reverse_eq_cons (h : Tag name attributes key tag) (hn : IsName name.toList) :
    ∃ byte bytes, (Utf8.encodeChars tag).reverse = byte :: bytes ∧ byte ≠ Text.byte '/' := by
  cases hread : (Utf8.encodeChars tag).reverse with
  | nil =>
    have hempty : tag = [] :=
      Utf8.encodeChars_injective tag [] (List.reverse_eq_nil_iff.mp hread)
    obtain ⟨declared, rest, hk, hd, hattributes⟩ := h
    exact absurd (List.append_eq_nil_iff.mp hempty).1 (hk.ne_nil hn)
  | cons byte bytes =>
    refine ⟨byte, bytes, rfl, ?_⟩
    rintro rfl
    have hsplit : Utf8.encodeChars tag = bytes.reverse ++ Text.byte '/' :: [] := by
      rw [← List.reverse_reverse (Utf8.encodeChars tag), hread, List.reverse_cons]
    obtain ⟨front, behind, rfl, -, hnil⟩ :=
      Utf8.split_at_byte '/' (by decide) tag bytes.reverse [] hsplit
    obtain rfl : behind = [] := Utf8.encodeChars_injective behind [] hnil
    exact h.last hn (by simp)

theorem runs (h : Tag name attributes key tag) (hn : IsName name.toList)
    (ha : ∀ a ∈ attributes, IsName a.1.toList) (names : List Bytes) (b : Builder) :
    Runs (Utf8.encodeChars tag) ⟨.markup, names⟩ b
      ⟨.tag (Utf8.encodeChars tag).reverse none, names⟩ b := by
  have hrun := (h.guarded hn ha).runs names b []
  rw [List.append_nil] at hrun
  obtain ⟨declared, rest, hk, hd, hattributes⟩ := h
  have hne := Utf8.encodeChars_ne_nil key (hk.ne_nil hn)
  have hkey := undelimited_encodeChars key (hk.unmarked hn)
  rw [Utf8.encodeChars_append] at hrun ⊢
  cases hbytes : Utf8.encodeChars key with
  | nil => exact absurd hbytes hne
  | cons byte bytes =>
    rw [hbytes] at hrun hkey
    have hfirst := hkey byte List.mem_cons_self
    intro before more
    rw [← hrun before more, List.cons_append, List.cons_append, readFrom, readFrom,
      step_markup names before byte
        ⟨hfirst '!' (by decide), hfirst '?' (by decide), hfirst '/' (by decide)⟩]

theorem leads_opening (h : Tag name attributes key tag) (hn : IsName name.toList)
    (ha : ∀ a ∈ attributes, IsName a.1.toList ∧ a.1.toList ≠ xmlns)
    (hd : (attributes.map (·.1)).Nodup) (names : List Bytes) (b : Builder) :
    Leads (Utf8.encodeChars ('<' :: (tag ++ ['>']))) names b (Utf8.encodeChars key :: names)
      { b with stack := { name := name, attributes := attributes } :: b.stack } := by
  have hbytes : Utf8.encodeChars ('<' :: (tag ++ ['>'])) =
      Text.byte '<' :: (Utf8.encodeChars tag ++ [Text.byte '>']) := by
    rw [Utf8.encodeChars_cons_ascii '<' (by decide), Utf8.encodeChars_append]
    rfl
  have hdone : ∀ before, Reader.step ⟨.tag (Utf8.encodeChars tag).reverse none, names⟩ before
      (Text.byte '>') = .ok (some (.opening (Utf8.encodeChars tag)),
        ⟨.text [], Utf8.encodeChars key :: names⟩) := by
    intro before
    obtain ⟨byte, bytes, hread, hslash⟩ := h.reverse_eq_cons hn
    have hcontent : (byte :: bytes).reverse = Utf8.encodeChars tag := by
      rw [← hread, List.reverse_reverse]
    change Reader.tagDone ⟨.tag (Utf8.encodeChars tag).reverse none, names⟩
      (Utf8.encodeChars tag).reverse = _
    rw [hread]
    simp only [Reader.tagDone, if_neg hslash, hcontent, h.tagName hn]
    rfl
  have hadd : b.add? (some (.opening (Utf8.encodeChars tag))) = .ok
      { b with stack := { name := name, attributes := attributes } :: b.stack } := by
    simp only [Builder.add?, Builder.add, h.ofTag hn ha hd]
    rfl
  rw [hbytes]
  exact leads_mark ((h.runs hn (fun a hmem => (ha a hmem).1) names b).trans (.one _ hdone hadd))

theorem leads_selfClosing (h : Tag name attributes key tag) (hn : IsName name.toList)
    (ha : ∀ a ∈ attributes, IsName a.1.toList ∧ a.1.toList ≠ xmlns)
    (hd : (attributes.map (·.1)).Nodup) (names : List Bytes) (b : Builder) :
    Leads (Utf8.encodeChars ('<' :: (tag ++ ['/', '>']))) names b names
      (b.place { name := name, attributes := attributes }) := by
  have hbytes : Utf8.encodeChars ('<' :: (tag ++ ['/', '>'])) =
      Text.byte '<' :: (Utf8.encodeChars tag ++ ([Text.byte '/'] ++ [Text.byte '>'])) := by
    rw [Utf8.encodeChars_cons_ascii '<' (by decide), Utf8.encodeChars_append]
    rfl
  have hslash : Runs [Text.byte '/'] ⟨.tag (Utf8.encodeChars tag).reverse none, names⟩ b
      ⟨.tag (Text.byte '/' :: (Utf8.encodeChars tag).reverse) none, names⟩ b :=
    (Guarded.plain _ [] (by decide) .nil).runs names b _
  have hdone : ∀ before, Reader.step
      ⟨.tag (Text.byte '/' :: (Utf8.encodeChars tag).reverse) none, names⟩ before (Text.byte '>') =
        .ok (some (.empty (Utf8.encodeChars tag)), ⟨.text [], names⟩) := by
    intro before
    change Reader.complete _ (.empty (Utf8.encodeChars tag).reverse.reverse) = _
    rw [List.reverse_reverse]
    rfl
  have hadd : b.add? (some (.empty (Utf8.encodeChars tag))) =
      .ok (b.place { name := name, attributes := attributes }) := by
    simp only [Builder.add?, Builder.add, h.ofTag hn ha hd]
    rfl
  rw [hbytes]
  exact leads_mark ((h.runs hn (fun a hmem => (ha a hmem).1) names b).trans
    (hslash.trans (.one _ hdone hadd)))

end Tag

/-! ### End tags -/

theorem endTagName_append (key gap : Bytes) (hne : key ≠ []) (hkey : Undelimited key)
    (hgap : ∀ b ∈ gap, isSpace b = true) : endTagName (key ++ gap) = key := by
  have hnot : ∀ b ∈ key, ¬ isSpace b = true := fun b hb => by simp [hkey.not_space b hb]
  have hall : ¬ (key ++ gap).all isSpace = true := by
    obtain ⟨b, key, rfl⟩ := List.exists_cons_of_ne_nil hne
    intro hall
    exact hnot b List.mem_cons_self (List.all_eq_true.mp hall b (by simp))
  have hgap' : ∀ b ∈ gap.reverse, isSpace b = true := fun b hb => hgap b (List.mem_reverse.mp hb)
  have hdrop : key.reverse.dropWhile isSpace = key.reverse := by
    cases hread : key.reverse with
    | nil => rfl
    | cons b read =>
      have hb : b ∈ key := List.mem_reverse.mp (hread ▸ List.mem_cons_self)
      exact List.dropWhile_cons_of_neg (hnot b hb)
  rw [endTagName, if_neg hall, List.reverse_append, List.dropWhile_append_of_pos hgap', hdrop,
    List.reverse_reverse]

theorem runs_endTag (names : List Bytes) (b : Builder) (cs : List Char)
    (h : '>' ∉ cs ∧ '"' ∉ cs ∧ '\'' ∉ cs) :
    Runs (Utf8.encodeChars cs) ⟨.endTag [] none, names⟩ b
      ⟨.endTag (Utf8.encodeChars cs).reverse none, names⟩ b := by
  have hrun : Runs (Utf8.encodeChars cs) ⟨.endTag [] none, names⟩ b
      ⟨.endTag ((Utf8.encodeChars cs).reverse ++ []) none, names⟩ b := by
    refine .collect (Mode.endTag · none) names b _ [] ?_
    intro front byte behind heq before
    exact step_endTag names _ before byte (plain_bytes cs h byte (heq ▸ by simp))
  rwa [List.append_nil] at hrun

theorem leads_closing (name key gap : List Char) (hk : Qualified name key) (hn : IsName name)
    (hg : Spaces gap) (names : List Bytes) (e : Element) (outer : List Element)
    (root : Option Element) :
    Leads (Utf8.encodeChars ('<' :: '/' :: (key ++ (gap ++ ['>'])))) (Utf8.encodeChars key :: names)
      ⟨e :: outer, root⟩ names (Builder.place ⟨outer, root⟩ e) := by
  have hbytes : Utf8.encodeChars ('<' :: '/' :: (key ++ (gap ++ ['>']))) =
      Text.byte '<' :: ([Text.byte '/'] ++ (Utf8.encodeChars (key ++ gap) ++ [Text.byte '>'])) := by
    rw [Utf8.encodeChars_cons_ascii '<' (by decide), Utf8.encodeChars_cons_ascii '/' (by decide),
      ← List.append_assoc key, Utf8.encodeChars_append (key ++ gap)]
    rfl
  have hplain : ∀ c, c ∈ delimiters → c ∉ spaces → c ∉ key ++ gap := by
    intro c hd hs hmem
    rcases List.mem_append.mp hmem with hmem | hmem
    · exact hk.unmarked hn c hmem hd
    · exact hs (hg c hmem)
  have hname : endTagName (Utf8.encodeChars (key ++ gap)) = Utf8.encodeChars key := by
    rw [Utf8.encodeChars_append]
    exact endTagName_append _ _ (Utf8.encodeChars_ne_nil key (hk.ne_nil hn))
      (undelimited_encodeChars key (hk.unmarked hn)) hg.isSpace
  have hdone : ∀ before, Reader.step ⟨.endTag (Utf8.encodeChars (key ++ gap)).reverse none,
      Utf8.encodeChars key :: names⟩ before (Text.byte '>') =
        .ok (some .closing, ⟨.text [], names⟩) := by
    intro before
    change Reader.endTagDone ⟨.endTag (Utf8.encodeChars (key ++ gap)).reverse none,
      Utf8.encodeChars key :: names⟩ (before + 1) (Utf8.encodeChars (key ++ gap)).reverse = _
    simp only [Reader.endTagDone, List.reverse_reverse, hname, if_true]
    rfl
  rw [hbytes]
  apply leads_mark
  refine .trans (.one none (fun _ => rfl) rfl) (.trans (runs_endTag _ _ (key ++ gap) ?_) ?_)
  · exact ⟨hplain '>' (by decide) (by decide), hplain '"' (by decide) (by decide),
      hplain '\'' (by decide) (by decide)⟩
  · exact .one _ hdone rfl

end Rendering

end OlapClient.Markup

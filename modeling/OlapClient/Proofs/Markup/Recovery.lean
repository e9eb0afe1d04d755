import OlapClient.Proofs.Markup.Reading

/-!
# A tree is recovered from each of its renderings

Whatever prefixes, declarations, blanks, references, sections and comments a rendering uses, reading
it gives back the tree it was made for. The proof follows the rendering: what is written for an
element puts that element in its place, and the pieces between its tags fill it in order.
-/

namespace OlapClient.Markup

open Rendering

namespace Element

/-- More children, and more character data. -/
def extend (e : Element) (children : List Element) (text : List Char) : Element :=
  { e with children := e.children ++ children, text := e.text ++ String.ofList text }

theorem extend_nil (e : Element) : e.extend [] [] = e := by
  cases e
  simp [extend]

theorem addText_extend (e : Element) (heard : List Char) (children : List Element)
    (text : List Char) :
    (e.addText (String.ofList heard)).extend children text = e.extend children (heard ++ text) := by
  simp [extend, addText, String.append_assoc]

theorem addChild_extend (e child : Element) (children : List Element) (text : List Char) :
    (e.addChild child).extend children text = e.extend (child :: children) text := by
  simp [extend, addChild]

end Element

namespace Rendering

mutual

theorem Renders.leads {e : Element} {raw : List Char} (h : Renders e raw) (hw : e.WellNamed)
    (names : List Bytes) (b : Builder) :
    Leads (Utf8.encodeChars raw) names b names (b.place e) := by
  match h with
  | .enclosing name attributes children key tag text inner gap ht hc hg =>
    obtain ⟨_, _, _, _, hn, ha, hd, hchildren⟩ := hw
    have hopening := ht.leads_opening hn ha hd names b
    have hcontent := hc.leads hchildren (Utf8.encodeChars key :: names)
      { name := name, attributes := attributes } b.stack b.root
    have hclosing := leads_closing name.toList key gap ht.qualified hn hg names
      (Element.extend { name := name, attributes := attributes } children text) b.stack b.root
    have hsplit : '<' :: (tag ++ '>' :: (inner ++ '<' :: '/' :: (key ++ (gap ++ ['>'])))) =
        ('<' :: (tag ++ ['>'])) ++ (inner ++ '<' :: '/' :: (key ++ (gap ++ ['>']))) := by simp
    rw [hsplit, Utf8.encodeChars_append, Utf8.encodeChars_append inner]
    have hfilled : Element.extend { name := name, attributes := attributes } children text =
        ⟨name, attributes, children, String.ofList text⟩ := by simp [Element.extend]
    rw [hfilled] at hcontent hclosing
    exact hopening.trans (hcontent.trans hclosing)
  | .selfClosing name attributes key tag ht =>
    obtain ⟨_, _, _, _, hn, ha, hd, -⟩ := hw
    exact ht.leads_selfClosing hn ha hd names b

theorem Content.leads {children : List Element} {text raw : List Char}
    (h : Content children text raw) (hw : ∀ c ∈ children, c.WellNamed) (names : List Bytes)
    (e : Element) (outer : List Element) (root : Option Element) :
    Leads (Utf8.encodeChars raw) names ⟨e :: outer, root⟩ names
      ⟨e.extend children text :: outer, root⟩ := by
  match h with
  | .nil =>
    rw [e.extend_nil]
    exact .nil names _
  | .text written heard children text rest he h =>
    have hrest := h.leads hw names (e.addText (String.ofList heard)) outer root
    rw [Element.addText_extend] at hrest
    rw [Utf8.encodeChars_append]
    exact (leads_text written heard he names ⟨e :: outer, root⟩).trans hrest
  | .characterData heard children text rest hd h =>
    have hrest := h.leads hw names (e.addText (String.ofList heard)) outer root
    have hsplit : sectionOpening ++ (heard ++ (sectionClosing ++ rest)) =
        (sectionOpening ++ (heard ++ sectionClosing)) ++ rest := by simp
    rw [Element.addText_extend] at hrest
    rw [hsplit, Utf8.encodeChars_append]
    exact (leads_section heard hd names ⟨e :: outer, root⟩).trans hrest
  | .comment body children text rest hb h =>
    have hrest := h.leads hw names e outer root
    have hsplit : commentOpening ++ (body ++ (commentClosing ++ rest)) =
        (commentOpening ++ (body ++ commentClosing)) ++ rest := by simp
    rw [hsplit, Utf8.encodeChars_append]
    exact (leads_comment body hb names ⟨e :: outer, root⟩).trans hrest
  | .child c written children text rest hr h =>
    have hchild := hr.leads (hw c List.mem_cons_self) names ⟨e :: outer, root⟩
    have hrest := h.leads (fun c' hc' => hw c' (List.mem_cons_of_mem c hc')) names (e.addChild c)
      outer root
    rw [Element.addChild_extend] at hrest
    rw [Utf8.encodeChars_append]
    exact hchild.trans hrest

end

/-- At the end of the input the tree is complete. -/
theorem readDocument_of_leads (raw : List Char) (e : Element)
    (h : Leads (Utf8.encodeChars ('<' :: raw)) [] {} [] ⟨[], some e⟩) :
    readDocument (Utf8.encodeChars ('<' :: raw)) = .ok e := by
  have hmark : dropByteOrderMark (Utf8.encodeChars ('<' :: raw)) =
      Utf8.encodeChars ('<' :: raw) := by
    rw [Utf8.encodeChars_cons_ascii '<' (by decide)]
    rfl
  obtain ⟨r, b, hs, hread⟩ := h 0 {} {} [] (stands_start [] {})
  rw [List.append_nil] at hread
  rw [readDocument, hmark, hread, hs.finish]
  rfl

theorem Renders.starts {e : Element} {raw : List Char} (h : Renders e raw) :
    ∃ rest, raw = '<' :: rest := by
  cases h with
  | enclosing => exact ⟨_, rfl⟩
  | selfClosing => exact ⟨_, rfl⟩

theorem readDocument_declared (e : Element) (hw : e.WellNamed) (body raw : List Char)
    (hb : '>' ∉ body) (h : Renders e raw) :
    readDocument (Utf8.encodeChars ('<' :: '?' :: (body ++ ['?', '>']) ++ raw)) = .ok e := by
  refine readDocument_of_leads _ e ?_
  have hleads := (leads_instruction body hb [] {}).trans (h.leads hw [] {})
  rw [← Utf8.encodeChars_append] at hleads
  exact hleads

end Rendering

theorem rendering_reads_as_tree (e : Element) (hw : e.WellNamed) (document : String)
    (h : Renders e document.toList) : readDocument (Utf8.encode document) = .ok e := by
  have hleads := h.leads hw [] {}
  obtain ⟨rest, hstart⟩ := h.starts
  rw [hstart] at hleads
  rw [Utf8.encode, hstart]
  exact readDocument_of_leads rest e hleads

/-- A prefix, its declaration, a reference, and text on both sides of a child and a comment. -/
theorem prefixed_rendering_reads_as_tree :
    readDocument
      (Utf8.encode "<a:b xmlns:a='u' k='&lt;'>x<c /><!-- > --><![CDATA[<&]]></a:b >") =
    .ok ⟨"b", [("k", "<")], [⟨"c", [], [], ""⟩], "x<&"⟩ := by
  have hequals : Equals ['='] := .mk [] [] (by decide) (by decide)
  have hless : Escaped ['\''] "&lt;".toList ['<'] :=
    .reference _ '<' [] [] (.named '<' "lt" (by decide)) .nil
  have hc : Renders ⟨"c", [], [], ""⟩ "<c />".toList :=
    .selfClosing "c" [] _ _ (.mk _ [] [' '] .bare (by decide) (.done [' '] (by decide)))
  have hattributes : Attributes [("k", "<")] ["xmlns:a".toList] " xmlns:a='u' k='&lt;'".toList :=
    .declaring [' '] _ _ '\'' ['u'] _ [] _ (by decide) (by decide) (.prefixed ['a'] (by decide))
      hequals (.inr rfl) (by decide)
      (.named [' '] "k" _ _ '\'' _ _ [] [] [] (by decide) (by decide) .bare hequals (.inr rfl) hless
        (.done [] (by decide)))
  have hcontent : Content [⟨"c", [], [], ""⟩] "x<&".toList
      "x<c /><!-- > --><![CDATA[<&]]>".toList :=
    .text ['x'] ['x'] _ _ _ (.plain 'x' [] [] (by decide) .nil)
      (.child _ _ _ _ _ hc (.comment " > ".toList _ _ _ (by decide)
        (.characterData "<&".toList _ _ _ (by decide) .nil)))
  refine rendering_reads_as_tree _ ?_ _ ?_
  · refine .mk "b" _ _ _ (by decide) (by decide) (by decide) ?_
    intro c hmem
    obtain rfl := List.mem_singleton.mp hmem
    exact .mk "c" _ _ _ (by decide) (by decide) (by decide) (by simp)
  · exact .enclosing "b" _ _ _ _ "x<&".toList _ [' ']
      (.mk _ _ _ (.prefixed ['a'] (by decide)) (by decide) hattributes) hcontent (by decide)

end OlapClient.Markup

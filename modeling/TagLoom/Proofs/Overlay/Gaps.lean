import TagLoom.Overlay
import TagLoom.Proofs.Bytes.Text
import TagLoom.Proofs.Markup.Escaped

/-!
# Gaps of an overlay

An overlay is markup with gaps.  The markup is told by the stages and severities of the reports; the
gaps hold their messages and places, escaped.  A text in a gap adds no mark of markup, so it can
neither end its gap nor look like a report.
-/

namespace TagLoom

namespace Bytes

variable {needle : Bytes} {c : UInt8}

theorem occurrences_append_of_getLast? (hne : needle ≠ []) (hc : c ∉ needle) {s : Bytes}
    (hs : s.getLast? = some c) (t : Bytes) :
    occurrences needle (s ++ t) = occurrences needle s + occurrences needle t := by
  obtain ⟨init, rfl⟩ := List.getLast?_eq_some_iff.1 hs
  have hinit : occurrences needle (init ++ [c]) = occurrences needle init :=
    occurrences_append_cons hne hc init []
  rw [List.append_assoc, List.singleton_append, occurrences_append_cons hne hc, hinit]

theorem occurrences_append_of_head? (hne : needle ≠ []) (hc : c ∉ needle) (s : Bytes) {t : Bytes}
    (ht : t.head? = some c) (rest : Bytes) :
    occurrences needle (s ++ (t ++ rest)) = occurrences needle s + occurrences needle (t ++ rest) := by
  obtain ⟨tail, rfl⟩ := List.head?_eq_some_iff.1 ht
  have hrest : occurrences needle (c :: (tail ++ rest)) = occurrences needle (tail ++ rest) := by
    rw [← List.nil_append (c :: (tail ++ rest)), occurrences_append_cons hne hc, occurrences,
      Nat.zero_add]
  rw [List.cons_append, occurrences_append_cons hne hc, hrest]

end Bytes

namespace Overlay

open Bytes (occurrences)

/-! ## Markup with gaps -/

/-- A piece of a page: markup as it is, or a gap for a text. -/
inductive Piece where
  | markup (s : Bytes)
  | gap
deriving DecidableEq

/-- A page with texts in its gaps, escaped; gaps without a text stay empty. -/
def fill : List Piece → List Bytes → Bytes
  | [], _ => []
  | .markup s :: pieces, texts => s ++ fill pieces texts
  | .gap :: pieces, [] => fill pieces []
  | .gap :: pieces, text :: texts => Escape.escapeHtml text ++ fill pieces texts

def gaps (pieces : List Piece) : Nat := pieces.count .gap

theorem notMem_marks_of_mem_escapeHtml {s : Bytes} {c : UInt8} (h : c ∈ Escape.escapeHtml s) :
    c ∉ Escape.marks :=
  fun hc => Escape.notMem_apply (e := .html) (by decide) s hc h

theorem filter_marks_fill (pieces : List Piece) (texts : List Bytes) :
    (fill pieces texts).filter Escape.marks.contains =
      (fill pieces []).filter Escape.marks.contains := by
  induction pieces generalizing texts with
  | nil => rfl
  | cons piece pieces ih =>
      cases piece with
      | markup s => rw [fill, fill, List.filter_append, List.filter_append, ih]
      | gap =>
          cases texts with
          | nil => rfl
          | cons text texts =>
              have hgap : (Escape.escapeHtml text).filter Escape.marks.contains = [] :=
                List.filter_eq_nil_iff.2 fun c hc => by
                  simpa using notMem_marks_of_mem_escapeHtml hc
              rw [fill, fill, List.filter_append, hgap, List.nil_append, ih]

theorem fill_append {front back : List Piece} {before after : List Bytes}
    (h : gaps front = before.length) :
    fill (front ++ back) (before ++ after) = fill front before ++ fill back after := by
  induction front generalizing before with
  | nil =>
      obtain rfl := List.length_eq_zero_iff.1 h.symm
      rfl
  | cons piece front ih =>
      cases piece with
      | markup s =>
          rw [List.cons_append, fill, fill, ih (by simpa [gaps] using h), List.append_assoc]
      | gap =>
          cases before with
          | nil => simp [gaps] at h
          | cons text before =>
              rw [List.cons_append, List.cons_append, fill, fill,
                ih (by simpa [gaps] using h), List.append_assoc]

/-! ## Reports -/

/-- What the markup of a report is told by. -/
def label (d : Diagnostic) : DiagnosticKind × Severity := (d.kind, d.severity)

def texts (d : Diagnostic) : List Bytes := [message d, d.location]

def beforeMessage (l : DiagnosticKind × Severity) : Bytes :=
  let shade : Bytes := if l.2 == .warning then "#feca57" else "#ff6b6b"
  "\t\t<div class=\"taglet-error\" style=\"background: #2d3748; padding: 15px; margin-bottom: 15px; border-radius: 4px; border-left: 4px solid "
    ++ shade ++ ";\">\n\t\t\t<div style=\"color: " ++ shade
    ++ "; font-weight: bold; margin-bottom: 8px;\">" ++ l.1.label ++ " " ++ l.2.label
    ++ "</div>\n\t\t\t<div style=\"color: #e2e8f0; margin-bottom: 5px;\"><strong>"

def beforeLocation : Bytes :=
  "</strong></div>\n\t\t\t<div class=\"taglet-error-location\" style=\"color: #a0aec0; font-size: 12px;\">"

def afterLocation : Bytes := "</div>\n\t\t</div>\n"

/-- A report with gaps for its message and its place. -/
def entryFrame (l : DiagnosticKind × Severity) : List Piece :=
  [.markup (beforeMessage l), .gap, .markup beforeLocation, .gap, .markup afterLocation]

/-- An overlay with gaps for the messages and places of its reports. -/
def frame (ls : List (DiagnosticKind × Severity)) : List Piece :=
  if ls.isEmpty then []
  else .markup (opening ls.length) :: ls.flatMap entryFrame ++ [.markup closing]

theorem entry_eq_append (d : Diagnostic) :
    entry d = beforeMessage (label d) ++ (Escape.escapeHtml (message d) ++ (beforeLocation ++
      (Escape.escapeHtml d.location ++ afterLocation))) := by
  simp only [entry, beforeMessage, label, colour, beforeLocation, afterLocation, List.append_assoc]
  rfl

theorem entry_eq_fill (d : Diagnostic) : entry d = fill (entryFrame (label d)) (texts d) := by
  rw [entry_eq_append]
  simp only [entryFrame, texts, fill, List.append_nil]

theorem render_eq_fill (ds : List Diagnostic) :
    render ds = fill (frame (ds.map label)) (ds.flatMap texts) := by
  have hentries (after : List Bytes) :
      fill ((ds.map label).flatMap entryFrame ++ [Piece.markup closing]) (ds.flatMap texts ++ after) =
        ds.flatMap entry ++ closing := by
    induction ds with
    | nil => simp [fill]
    | cons d ds ih =>
        rw [List.map_cons, List.flatMap_cons, List.flatMap_cons, List.flatMap_cons,
          List.append_assoc, List.append_assoc, fill_append (by rfl), ih, ← entry_eq_fill,
          List.append_assoc]
  cases hds : ds.isEmpty with
  | true =>
      obtain rfl := List.isEmpty_iff.1 hds
      rfl
  | false =>
      have hlabels : (ds.map label).isEmpty = false := by rw [List.isEmpty_map, hds]
      have hfilled := hentries []
      rw [List.append_nil] at hfilled
      rw [render, hds, frame, hlabels, if_neg Bool.false_ne_true, if_neg Bool.false_ne_true,
        List.cons_append, fill, hfilled, List.length_map, List.append_assoc]

theorem gaps_frame (ds : List Diagnostic) :
    gaps (frame (ds.map label)) = (ds.flatMap texts).length := by
  have hentries : gaps ((ds.map label).flatMap entryFrame) = (ds.flatMap texts).length := by
    induction ds with
    | nil => rfl
    | cons d ds ih =>
        have hentry : gaps (entryFrame (label d)) = (texts d).length := rfl
        rw [List.map_cons, List.flatMap_cons, List.flatMap_cons, gaps, List.count_append,
          List.length_append, ← ih, ← hentry, gaps, gaps]
  cases hds : ds.isEmpty with
  | true =>
      rw [List.isEmpty_iff.1 hds]
      rfl
  | false =>
      have hlabels : (ds.map label).isEmpty = false := by rw [List.isEmpty_map, hds]
      rw [← hentries, frame, hlabels, if_neg Bool.false_ne_true]
      simp [gaps]

/-! ## Counting reports -/

def reportClass : Bytes := "class=\"taglet-error\""

theorem reportClass_ne_nil : reportClass ≠ [] := by decide

theorem occurrences_of_notMem {s : Bytes} (h : '"'.toUInt8 ∉ s) : occurrences reportClass s = 0 :=
  Bytes.occurrences_eq_zero (by decide) h

theorem occurrences_escapeHtml (s : Bytes) :
    occurrences reportClass (Escape.escapeHtml s) = 0 :=
  occurrences_of_notMem fun h => notMem_marks_of_mem_escapeHtml h (by decide)

theorem occurrences_label (l : DiagnosticKind × Severity) :
    occurrences reportClass l.1.label = 0 ∧ occurrences reportClass l.2.label = 0 := by
  have hkind (kind : DiagnosticKind) : '"'.toUInt8 ∉ kind.label := by cases kind <;> decide
  have hseverity (severity : Severity) : '"'.toUInt8 ∉ severity.label := by
    cases severity <;> decide
  exact ⟨occurrences_of_notMem (hkind l.1), occurrences_of_notMem (hseverity l.2)⟩

/-- The markup before a message ends in a mark that is not in the attribute, and holds the attribute
once. -/
theorem occurrences_beforeMessage_append (l : DiagnosticKind × Severity) (rest : Bytes) :
    occurrences reportClass (beforeMessage l ++ rest) = 1 + occurrences reportClass rest := by
  have hne := reportClass_ne_nil
  have hshade : '"'.toUInt8 ∉ (if l.2 == .warning then "#feca57" else "#ff6b6b" : Bytes) := by
    split <;> decide
  have hstart : occurrences reportClass (Bytes.ofString "\t\t<div class=\"taglet-error\" style=\"background: #2d3748; padding: 15px; margin-bottom: 15px; border-radius: 4px; border-left: 4px solid ") = 1 := by
    rw [Bytes.ofString_ofList]
    decide +kernel
  have hborder : occurrences reportClass (Bytes.ofString ";\">\n\t\t\t<div style=\"color: ") = 0 := by
    rw [Bytes.ofString_ofList]
    decide
  have hcolour : occurrences reportClass
      (Bytes.ofString "; font-weight: bold; margin-bottom: 8px;\">") = 0 := by
    rw [Bytes.ofString_ofList]
    decide
  have hstrong : occurrences reportClass
      (Bytes.ofString "</div>\n\t\t\t<div style=\"color: #e2e8f0; margin-bottom: 5px;\"><strong>") = 0 := by
    rw [Bytes.ofString_ofList]
    decide
  have hblank : ' '.toUInt8 ∉ reportClass := by decide
  have hsemicolon : ';'.toUInt8 ∉ reportClass := by decide
  have hgreater : '>'.toUInt8 ∉ reportClass := by decide
  have hless : '<'.toUInt8 ∉ reportClass := by decide
  obtain ⟨hkind, hseverity⟩ := occurrences_label l
  simp only [beforeMessage, List.append_assoc]
  rw [Bytes.occurrences_append_of_getLast? hne hblank (by decide +kernel), hstart,
    Bytes.occurrences_append_of_head? hne hsemicolon _ (by decide),
    occurrences_of_notMem hshade,
    Bytes.occurrences_append_of_getLast? hne hblank (by decide), hborder,
    Bytes.occurrences_append_of_head? hne hsemicolon _ (by decide),
    occurrences_of_notMem hshade,
    Bytes.occurrences_append_of_getLast? hne hgreater (by decide), hcolour,
    Bytes.occurrences_append_of_head? hne hblank _ (by decide), hkind,
    Bytes.occurrences_append_of_getLast? hne hblank (by decide),
    occurrences_of_notMem (s := " ") (by decide),
    Bytes.occurrences_append_of_head? hne hless _ (by decide), hseverity,
    Bytes.occurrences_append_of_getLast? hne hgreater (by decide), hstrong]
  simp only [Nat.zero_add]

theorem occurrences_escapeHtml_append (text : Bytes) {markup : Bytes}
    (h : markup.head? = some '<'.toUInt8) (rest : Bytes) :
    occurrences reportClass (Escape.escapeHtml text ++ (markup ++ rest)) =
      occurrences reportClass (markup ++ rest) := by
  have hless : '<'.toUInt8 ∉ reportClass := by decide
  rw [Bytes.occurrences_append_of_head? reportClass_ne_nil hless _ h, occurrences_escapeHtml,
    Nat.zero_add]

theorem occurrences_entry_append (d : Diagnostic) (rest : Bytes) :
    occurrences reportClass (entry d ++ rest) = 1 + occurrences reportClass rest := by
  have hne := reportClass_ne_nil
  have hgreater : '>'.toUInt8 ∉ reportClass := by decide
  have hline : '\n'.toUInt8 ∉ reportClass := by decide
  have hlocation : occurrences reportClass beforeLocation = 0 := by
    rw [beforeLocation, Bytes.ofString_ofList]
    decide
  have hafter : occurrences reportClass afterLocation = 0 := by decide
  rw [entry_eq_append]
  simp only [List.append_assoc]
  calc occurrences reportClass (beforeMessage (label d) ++ (Escape.escapeHtml (message d) ++
        (beforeLocation ++ (Escape.escapeHtml d.location ++ (afterLocation ++ rest)))))
      = 1 + occurrences reportClass (Escape.escapeHtml (message d) ++
          (beforeLocation ++ (Escape.escapeHtml d.location ++ (afterLocation ++ rest)))) := by
        rw [occurrences_beforeMessage_append]
    _ = 1 + occurrences reportClass
          (beforeLocation ++ (Escape.escapeHtml d.location ++ (afterLocation ++ rest))) := by
        rw [occurrences_escapeHtml_append _ (by decide)]
    _ = 1 + occurrences reportClass (Escape.escapeHtml d.location ++ (afterLocation ++ rest)) := by
        rw [Bytes.occurrences_append_of_getLast? hne hgreater (by decide), hlocation,
          Nat.zero_add]
    _ = 1 + occurrences reportClass (afterLocation ++ rest) := by
        rw [occurrences_escapeHtml_append _ (by decide)]
    _ = 1 + occurrences reportClass rest := by
        rw [Bytes.occurrences_append_of_getLast? hne hline (by decide), hafter,
          Nat.zero_add]

theorem occurrences_opening_append (count : Nat) (rest : Bytes) :
    occurrences reportClass (opening count ++ rest) = occurrences reportClass rest := by
  have hne := reportClass_ne_nil
  have hdigits : occurrences reportClass (Bytes.ofNat count) = 0 :=
    occurrences_of_notMem fun h => absurd (Bytes.isDigit_of_mem_ofNat count _ h) (by decide)
  have hstop : occurrences reportClass (Bytes.ofString " compiler diagnostic(s)</h2>\n") = 0 := by
    decide
  rw [opening, List.append_assoc, List.append_assoc, Bytes.ofString_ofList,
    Bytes.occurrences_append_of_getLast? hne (c := '>'.toUInt8) (by decide) (by decide),
    Bytes.occurrences_append_of_head? hne (c := ' '.toUInt8) (by decide) _ (by decide),
    hdigits,
    Bytes.occurrences_append_of_getLast? hne (c := '\n'.toUInt8) (by decide) (by decide),
    hstop, Nat.zero_add, Nat.zero_add]
  exact Nat.add_eq_right.2 (by decide +kernel)

theorem occurrences_render (ds : List Diagnostic) :
    occurrences reportClass (render ds) = ds.length := by
  have hclosing : occurrences reportClass closing = 0 := by decide
  have hentries : occurrences reportClass (ds.flatMap entry ++ closing) = ds.length := by
    induction ds with
    | nil => exact hclosing
    | cons d ds ih =>
        rw [List.flatMap_cons, List.append_assoc, occurrences_entry_append, ih, List.length_cons,
          Nat.add_comm]
  unfold render
  split
  · next hempty =>
    rw [List.isEmpty_iff.1 hempty]
    rfl
  · rw [List.append_assoc, occurrences_opening_append, hentries]

/-- An overlay counts each report once.  It is markup with a gap for each message and each place of the
reports, which stand there escaped; other texts in reports of the same stages and severities change
the gaps only, and no text adds a mark of markup. -/
theorem reports_fill_gaps (ds : List Diagnostic) :
    occurrences "class=\"taglet-error\"" (render ds) = ds.length ∧
      gaps (frame (ds.map label)) = (ds.flatMap texts).length ∧
      render ds = fill (frame (ds.map label)) (ds.flatMap texts) ∧
      (∀ text, ∀ c ∈ Escape.escapeHtml text, c ∉ Bytes.ofString "<>\"'") ∧
      ∀ ds', ds'.map label = ds.map label →
        render ds' = fill (frame (ds.map label)) (ds'.flatMap texts) ∧
          (render ds').filter (Bytes.ofString "<>\"'").contains =
            (render ds).filter (Bytes.ofString "<>\"'").contains := by
  refine ⟨occurrences_render ds, gaps_frame ds, render_eq_fill ds,
    fun _ _ => notMem_marks_of_mem_escapeHtml, ?_⟩
  intro ds' hlabels
  have hfill : render ds' = fill (frame (ds.map label)) (ds'.flatMap texts) := by
    rw [render_eq_fill, hlabels]
  refine ⟨hfill, ?_⟩
  rw [hfill, render_eq_fill ds]
  exact (filter_marks_fill _ _).trans (filter_marks_fill _ _).symm

def forgedReport : Diagnostic :=
  ⟨.resolution, .warning, "</strong></div><div class=\"taglet-error\">", "<b>.html", 3, 9, ["'"]⟩

/-- A forged report counts once and adds no mark to what a plain one has. -/
theorem forgedReport_fills_gaps :
    let plain : Diagnostic := ⟨.resolution, .warning, "recursion", "loop.html", 1, 1, []⟩
    [forgedReport].map label = [plain].map label ∧
      occurrences "class=\"taglet-error\"" (render [forgedReport]) = 1 ∧
      ';'.toUInt8 ∈ Escape.escapeHtml (message forgedReport) ∧
      ';'.toUInt8 ∉ Bytes.ofString "<>\"'" ∧
      (render [forgedReport]).filter (Bytes.ofString "<>\"'").contains =
        (render [plain]).filter (Bytes.ofString "<>\"'").contains := by
  intro plain
  have hsemicolon : ';'.toUInt8 ∈ Escape.escapeHtml (message forgedReport) := by decide
  obtain ⟨-, -, -, hescaped, htwo⟩ := reports_fill_gaps [plain]
  refine ⟨rfl, (reports_fill_gaps [forgedReport]).1, hsemicolon, ?_, (htwo [forgedReport] rfl).2⟩
  exact hescaped _ _ hsemicolon

end Overlay

end TagLoom

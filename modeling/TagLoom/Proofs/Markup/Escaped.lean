import TagLoom.Escape
import TagLoom.Proofs.Markup.Append

/-!
# Escaped values in HTML

Places that take a value under an escape, and why the escaped text does not lead away from them.
-/

namespace TagLoom

namespace Escape

def marks : Bytes := "<>\"'"

theorem notMem_marks_of_mem_entity {c d : UInt8} (h : d ∈ entity c) : d ∉ marks := by
  have hfree {s : Bytes} (hs : (s.all fun d => !marks.contains d) = true) : ∀ d ∈ s, d ∉ marks := by
    simpa using hs
  by_cases hmark : c ∈ marks
  · have hentities : (marks.all fun c => (entity c).all fun d => !marks.contains d) = true := by decide
    exact hfree (List.all_eq_true.1 hentities c hmark) d h
  · have hne : ∀ m ∈ marks, (c == m) = false := fun m hm => by
      simpa using fun heq : c = m => hmark (heq ▸ hm)
    have hentity : entity c = if c == '&'.toUInt8 then Bytes.ofString "&amp;" else [c] := by
      rw [entity, hne '<'.toUInt8 (by decide), hne '>'.toUInt8 (by decide),
        hne '"'.toUInt8 (by decide), hne '\''.toUInt8 (by decide)]
      simp only [Bool.false_eq_true, if_false]
    rw [hentity] at h
    split at h
    · exact hfree (s := "&amp;") (by decide) d h
    · rw [List.mem_singleton.1 h]
      exact hmark

theorem notMem_apply {e : Escape} (he : e ≠ .none) (s : Bytes) {d : UInt8} (hd : d ∈ marks) :
    d ∉ e.apply s := by
  have hescaped (s : Bytes) : d ∉ escapeHtml s := fun h =>
    let ⟨_, _, hc⟩ := List.mem_flatMap.1 h
    notMem_marks_of_mem_entity hc hd
  cases e with
  | none => exact absurd rfl he
  | html => exact hescaped s
  | attr => exact hescaped s
  | url => exact hescaped (safeAddress s)

end Escape

namespace Markup

/-- A place where a value is written under an escape: text under that of text, and a quoted
attribute value under that of addresses when the attribute holds one. -/
inductive Takes : Markup → Escape → Prop where
  | text : Takes .text .html
  | quoted {t attr quote} (hquote : quote = '"'.toUInt8 ∨ quote = '\''.toUInt8) :
      Takes (.quotedValue t attr quote)
        (if (Markup.quotedValue t attr quote).holdsUrl then .url else .attr)

theorem advance_quotedValue_of_notMem (t : OpenTag) (attr : Bytes) {quote : UInt8} {s : Bytes}
    (h : quote ∉ s) : advance (.quotedValue t attr quote) s = .quotedValue t attr quote := by
  induction s with
  | nil => exact advance_nil _
  | cons c s ih =>
      rw [List.mem_cons, not_or] at h
      have hc : (c == quote) = false := by simpa using Ne.symm h.1
      rw [advance_cons]
      simp only [step, hc, Bool.false_eq_true, if_false, List.drop_zero]
      exact ih h.2

theorem Takes.advance {m : Markup} {e : Escape} (h : Takes m e) (s : Bytes) :
    m.advance (e.apply s) = m := by
  cases h with
  | text => exact advance_text_of_notMem (Escape.notMem_apply (by decide) s (by decide))
  | @quoted t attr quote hquote =>
      refine advance_quotedValue_of_notMem t attr (Escape.notMem_apply ?_ s ?_)
      · split <;> decide
      · rcases hquote with rfl | rfl <;> decide

/-- The quotes around attribute values are those of HTML. -/
def QuoteNamed (m : Markup) : Prop :=
  ∀ t attr quote, m = .quotedValue t attr quote → quote = '"'.toUInt8 ∨ quote = '\''.toUInt8

theorem quoteNamed_afterTag (t : OpenTag) : QuoteNamed (afterTag t) := by
  intro t' attr quote h
  unfold afterTag at h
  split at h <;> cases h

theorem QuoteNamed.step {m : Markup} (h : QuoteNamed m) (c : UInt8) (rest : Bytes) :
    QuoteNamed (step m c rest).1 := by
  cases m with
  | quotedValue t attr quote =>
      simp only [Markup.step]
      split
      · simp [QuoteNamed]
      · exact h
  | beforeValue t attr =>
      simp only [Markup.step]
      repeat' split
      · simp [QuoteNamed]
      · rename_i hquote
        rintro t' attr' quote ⟨⟩
        simpa using hquote
      · exact quoteNamed_afterTag t
      · simp [QuoteNamed]
  | _ =>
      simp only [Markup.step]
      repeat' split
      all_goals first
        | exact quoteNamed_afterTag _
        | simp [QuoteNamed]

theorem QuoteNamed.advance {m : Markup} (h : QuoteNamed m) (s : Bytes) : QuoteNamed (advance m s) :=
  advance_keeps (fun _ c rest h => h.step c rest) h s

end Markup

end TagLoom

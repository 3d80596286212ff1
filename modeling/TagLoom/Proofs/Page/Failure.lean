import TagLoom.Page

/-!
# Pages with and without an error

Once a page has an error nothing that is done to it changes it.  Before, what a value other than
nothing does to a page depends on its text alone.
-/

namespace TagLoom.Page

variable {β : Type} {p : Page}

theorem put_of_failure (h : p.failure.isSome) (s : Bytes)
    (refused : Bytes → RenderError) : p.put s refused = p := by
  rw [put]
  split <;> simp_all

theorem raw_of_failure (h : p.failure.isSome) (s : Bytes) : p.raw s = p := by
  rw [raw]
  split
  · rfl
  · exact put_of_failure h s _

theorem fail_of_failure (h : p.failure.isSome) (e : RenderError) : p.fail e = p := by
  rw [fail]
  split <;> simp_all

theorem writeData_of_failure (h : p.failure.isSome) (v : Value β) (esc : Escape) :
    p.writeData v esc = p := by
  obtain ⟨e, he⟩ := Option.isSome_iff_exists.1 h
  simp only [writeData, he]

theorem writeContent_of_failure (h : p.failure.isSome) (run : RunBlock β) (v : Value β) :
    p.writeContent run v = some p := by
  obtain ⟨e, he⟩ := Option.isSome_iff_exists.1 h
  simp only [writeContent, he]

theorem writeValue_of_failure (h : p.failure.isSome) (run : RunBlock β) (v : Value β)
    (esc : Escape) : p.writeValue run v esc = some p := by
  rw [writeValue, writeContent_of_failure h, writeData_of_failure h]
  split <;> rfl

theorem writeMarkdown_of_failure (h : p.failure.isSome) (v : Value β) : p.writeMarkdown v = p := by
  have hfold (ts : List Bytes) (refused : Bytes → RenderError) :
      ts.foldl (fun p t => p.put t refused) p = p := by
    induction ts with
    | nil => rfl
    | cons t ts ih => rw [List.foldl_cons, put_of_failure h, ih]
  unfold writeMarkdown
  split
  · rfl
  · exact hfold _ _

theorem writeSanitized_of_failure (h : p.failure.isSome) (v : Value β) (policy : Bytes) :
    p.writeSanitized v policy = p := by
  obtain ⟨e, he⟩ := Option.isSome_iff_exists.1 h
  simp only [writeSanitized, he]

theorem evaluate_of_failure [Language] (h : p.failure.isSome) (e : Expression) (env : Env β) :
    p.evaluate e env = (.nil, p) := by
  obtain ⟨failure, hf⟩ := Option.isSome_iff_exists.1 h
  simp only [evaluate, hf]

theorem entries_of_failure (h : p.failure.isSome) (v : Value β) : p.entries v = ([], p) := by
  obtain ⟨failure, hf⟩ := Option.isSome_iff_exists.1 h
  simp only [entries, hf]

theorem err?_of_failure (h : p.failure.isSome) : p.err? = p.failure := by
  obtain ⟨failure, hf⟩ := Option.isSome_iff_exists.1 h
  simp only [err?, hf]

theorem err?_fail_isSome (p : Page) (e : RenderError) : (p.fail e).err?.isSome := by
  cases hp : p.failure with
  | some e' =>
      rw [fail_of_failure (by simp [hp]), err?_of_failure (by simp [hp]), hp]
      rfl
  | none =>
      simp only [fail, hp]
      rfl

/-! ## Without an error -/

theorem writeData_of_ne_nil {p : Page} (hp : p.failure = none) {v : Value β} (h : v ≠ .nil)
    (hcontent : v ≠ .noContent) (esc : Escape) :
    p.writeData v esc =
      match v.text? with
      | some s => p.raw (esc.apply s)
      | none => p.fail (.value v.typeName v.castMessage) := by
  unfold writeData
  rw [hp]
  cases v <;> first | exact absurd rfl h | exact absurd rfl hcontent | rfl

theorem writeSanitized_of_ne_nil {p : Page} (hp : p.failure = none) {v : Value β} (h : v ≠ .nil)
    (policy : Bytes) :
    p.writeSanitized v policy =
      match if policy.isEmpty then some .ugc else Policy.ofLabel? policy with
      | none => p.fail (.policy policy)
      | some rules => p.raw (Sanitizer.sanitize rules v.toText) := by
  unfold writeSanitized
  rw [hp]
  cases v <;> first | exact absurd rfl h | rfl

end TagLoom.Page

/-!
## What reaches the sink

What an operation on a page emits reaches the sink as long as the page has no error; after the first
error nothing more does.
-/

namespace TagLoom.Page

variable {β : Type}

/-- A page went over into another one while a text was emitted: what the sink took is a beginning of
the text, all of it unless there is an error now, and nothing when there was one before. -/
structure Emits (p : Page) (text : Bytes) (p' : Page) : Prop where
  reached : ∃ taken, taken <+: text ∧ p'.sink.output = p.sink.output ++ taken
  whole : p'.failure = none → p.failure = none ∧ p'.sink.output = p.sink.output ++ text
  stuck : p.failure.isSome → p'.sink.output = p.sink.output

namespace Emits

variable {p p' q : Page} {s t : Bytes}

theorem refl (p : Page) : Emits p [] p :=
  ⟨⟨[], List.prefix_rfl, (List.append_nil _).symm⟩, fun h => ⟨h, (List.append_nil _).symm⟩, fun _ => rfl⟩

theorem trans (h : Emits p s q) (h' : Emits q t p') : Emits p (s ++ t) p' := by
  refine ⟨?_, fun hnone => ?_, fun hsome => ?_⟩
  · cases hq : q.failure with
    | none =>
        obtain ⟨taken, hprefix, htaken⟩ := h'.reached
        refine ⟨s ++ taken, (List.prefix_append_right_inj s).2 hprefix, ?_⟩
        rw [htaken, (h.whole hq).2, List.append_assoc]
    | some e =>
        obtain ⟨taken, hprefix, htaken⟩ := h.reached
        exact ⟨taken, hprefix.trans (List.prefix_append s t), by rw [h'.stuck (by simp [hq]), htaken]⟩
  · obtain ⟨hq, ht⟩ := h'.whole hnone
    obtain ⟨hp, hs⟩ := h.whole hq
    exact ⟨hp, by rw [ht, hs, List.append_assoc]⟩
  · cases hq : q.failure with
    | none => rw [(h.whole hq).1] at hsome; cases hsome
    | some e => rw [h'.stuck (by simp [hq]), h.stuck hsome]

theorem of_failure (h : p.failure.isSome) (s : Bytes) : Emits p s p :=
  ⟨⟨[], List.nil_prefix, (List.append_nil _).symm⟩, fun hnone => by simp [hnone] at h, fun _ => rfl⟩

end Emits

theorem emits_put (p : Page) (s : Bytes) (refused : Bytes → RenderError) :
    Emits p s (p.put s refused) := by
  cases hp : p.failure with
  | some e => 
      rw [put_of_failure (by simp [hp])]
      exact .of_failure (by simp [hp]) s
  | none =>
      rw [put, hp]
      simp only [Sink.write]
      cases hr : p.sink.refusal? p.sink.writes s with
      | some message => 
          exact ⟨⟨[], List.nil_prefix, by simp⟩, nofun, fun _ => rfl⟩
      | none =>
          have hout : ({ p.sink with writes := p.sink.writes ++ [s] } : Sink).output =
              p.sink.output ++ s := by
            simp [Sink.output]
          exact ⟨⟨s, List.prefix_rfl, hout⟩, fun h => ⟨hp, hout⟩, fun h => by simp [hp] at h⟩

theorem emits_raw (p : Page) (s : Bytes) : Emits p s (p.raw s) := by
  rw [raw]
  split
  · rename_i h
    rw [List.isEmpty_iff.1 h]
    exact .refl p
  · exact emits_put p s _

theorem emits_fail (p : Page) (e : RenderError) (s : Bytes) : Emits p s (p.fail e) := by
  cases hp : p.failure with
  | some e' =>
      rw [fail_of_failure (by simp [hp])]
      exact .of_failure (by simp [hp]) s
  | none =>
      rw [fail, hp]
      exact ⟨⟨[], List.nil_prefix, by simp⟩, nofun, fun _ => rfl⟩

theorem emits_evaluate [Language] (p : Page) (e : Expression) (env : Env β) :
    Emits p [] (p.evaluate e env).2 := by
  rw [evaluate]
  split
  · exact .refl p
  · split
    · exact .refl p
    · exact emits_fail p _ []

theorem emits_entries (p : Page) (v : Value β) : Emits p [] (p.entries v).2 := by
  rw [entries]
  split
  · exact .refl p
  · split
    · split
      · exact emits_fail p _ []
      · exact .refl p
    · exact emits_fail p _ []

end TagLoom.Page

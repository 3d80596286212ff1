import TagLoom.CheckCommand
import TagLoom.Proofs.Bytes.Text
import TagLoom.Proofs.Bytes.Utf8
import TagLoom.Proofs.Path.Below

/-!
# Accepted check commands

What is known of a command whose line was accepted: its arguments are printable, mean nothing to a
shell and, each taken as a path, stay below the working directory.  The value of a flag stays there
too unless the value itself starts at the root or with the way up: `-o=../x` has no component `..`.
-/

namespace TagLoom

namespace Unicode

/-! ## Words -/

def finish (done : List Bytes) (run : Bytes) : List Bytes :=
  if run.isEmpty then done else done ++ [run]

def wordsFrom (done : List Bytes) (run s : Bytes) : List Bytes :=
  let (_, done, run) := (Utf8.scan s).foldl
    (fun (acc : Bytes × List Bytes × Bytes) (c : Nat × Nat) =>
      let (rest, done, run) := acc
      let (r, size) := c
      if isSpace r then (rest.drop size, if run.isEmpty then done else done ++ [run], [])
      else (rest.drop size, done, run ++ rest.take size))
    (s, done, run)
  finish done run

theorem words_eq (s : Bytes) : words s = wordsFrom [] [] s := rfl

variable {done : List Bytes} {run s rest : Bytes} {r : Nat} {c : UInt8}

@[simp] theorem wordsFrom_nil : wordsFrom done run [] = finish done run := by
  simp [wordsFrom]

theorem wordsFrom_spells (h : Utf8.Spells s r) :
    wordsFrom done run (s ++ rest) =
      if isSpace r then wordsFrom (finish done run) [] rest
      else wordsFrom done (run ++ s) rest := by
  simp only [wordsFrom, h.scan_append, List.foldl_cons]
  split <;> simp [finish]

theorem wordsFrom_ill (h : Utf8.decode (c :: rest) = (Utf8.replacement, 1)) :
    wordsFrom done run (c :: rest) = wordsFrom done (run ++ [c]) rest := by
  have hspace : isSpace Utf8.replacement = false := by decide
  simp [wordsFrom, Utf8.scan_cons, h, hspace]

/-- A word that is read: it is not empty, and none of its bytes spells white space. -/
structure IsWord (w : Bytes) : Prop where
  ne_nil : w ≠ []
  solid : ∀ b ∈ w, b < 0x80 → isSpace b.toNat = false

/-- White space is found in the spelling of a character only if it is the character. -/
theorem solid_of_spells (h : Utf8.Spells s r) (hr : isSpace r = false) :
    ∀ b ∈ s, b < 0x80 → isSpace b.toNat = false := by
  intro b hb hascii
  by_cases hlow : r < 0x80
  · obtain ⟨c, -, rfl⟩ := h.exists_ascii hlow
    rwa [List.mem_singleton.1 hb, ← h.eq_toNat]
  · exact absurd hascii (Utf8.not_ascii_of_mem_encode (Nat.not_lt.1 hlow) (h.encode_eq ▸ hb))

theorem isWord_finish (hdone : ∀ w ∈ done, IsWord w)
    (hrun : ∀ b ∈ run, b < 0x80 → isSpace b.toNat = false) : ∀ w ∈ finish done run, IsWord w := by
  unfold finish
  split
  · exact hdone
  · next hne =>
    refine List.forall_mem_append.2 ⟨hdone, List.forall_mem_singleton.2 ⟨?_, hrun⟩⟩
    simpa using hne

theorem isWord_wordsFrom (hdone : ∀ w ∈ done, IsWord w)
    (hrun : ∀ b ∈ run, b < 0x80 → isSpace b.toNat = false) :
    ∀ w ∈ wordsFrom done run s, IsWord w := by
  induction s using Utf8.text_induction generalizing done run with
  | nil =>
      rw [wordsFrom_nil]
      exact isWord_finish hdone hrun
  | ill c rest hc hbad ih =>
      rw [wordsFrom_ill hbad]
      refine ih hdone (List.forall_mem_append.2 ⟨hrun, List.forall_mem_singleton.2 fun hascii => ?_⟩)
      exact absurd hascii hc
  | char s r rest hs ih =>
      rw [wordsFrom_spells hs]
      split
      · exact ih (isWord_finish hdone hrun) nofun
      · next hr =>
        exact ih hdone (List.forall_mem_append.2 ⟨hrun, solid_of_spells hs (by simpa using hr)⟩)

theorem isWord_of_mem_words : ∀ w ∈ words s, IsWord w := by
  rw [words_eq]
  exact isWord_wordsFrom nofun nofun

/-! ## Joined words -/

structure IsPlainWord (w : Bytes) : Prop extends IsWord w where
  ascii : ∀ b ∈ w, b < 0x80

theorem wordsFrom_append_plain {w : Bytes} (hascii : ∀ b ∈ w, b < 0x80)
    (hsolid : ∀ b ∈ w, isSpace b.toNat = false) :
    wordsFrom done run (w ++ rest) = wordsFrom done (run ++ w) rest := by
  induction w generalizing run with
  | nil => simp
  | cons b w ih =>
      rw [List.forall_mem_cons] at hascii hsolid
      have hb : Utf8.Spells [b] b.toNat := .one hascii.1 rfl
      rw [List.cons_append, ← List.singleton_append, wordsFrom_spells hb, hsolid.1,
        if_neg Bool.false_ne_true, ih hascii.2 hsolid.2, List.append_assoc, List.singleton_append]

theorem wordsFrom_join {ws : List Bytes} (h : ∀ w ∈ ws, IsPlainWord w) :
    wordsFrom done [] (Bytes.join " " ws) = done ++ ws := by
  induction ws generalizing done with
  | nil => simp [Bytes.join, finish]
  | cons w ws ih =>
      obtain ⟨hw, hws⟩ := List.forall_mem_cons.1 h
      have hempty : w.isEmpty = false := by simpa using hw.ne_nil
      have hsolid : ∀ b ∈ w, isSpace b.toNat = false := fun b hb => hw.solid b hb (hw.ascii b hb)
      cases ws with
      | nil =>
          have hjoin : Bytes.join " " [w] = w ++ [] := by simp [Bytes.join]
          rw [hjoin, wordsFrom_append_plain hw.ascii hsolid, wordsFrom_nil]
          simp [finish, hempty]
      | cons next more =>
          have hjoin : Bytes.join " " (w :: next :: more) =
              w ++ (Bytes.ofString " " ++ Bytes.join " " (next :: more)) := by
            simp [Bytes.join]
          have hblank : Utf8.Spells (Bytes.ofString " ") 0x20 := .one (by decide) rfl
          have hspace : isSpace 0x20 = true := by decide
          rw [hjoin, wordsFrom_append_plain hw.ascii hsolid, wordsFrom_spells hblank, hspace,
            if_pos rfl, ih hws]
          simp [finish, hempty]

theorem words_join {ws : List Bytes} (h : ∀ w ∈ ws, IsPlainWord w) :
    words (Bytes.join " " ws) = ws := by
  rw [words_eq, wordsFrom_join h, List.nil_append]

end Unicode

namespace CheckCommand

/-! ## Arguments -/

def shellBytes : Bytes := shellCharacters.flatten

/-- A text that as a path leads nowhere outside of where it starts, as far as the text tells. -/
structure StaysInside (path : Bytes) : Prop where
  relative : Path.isAbsolute path = false
  below : Path.up ∉ Path.components path

/-- An argument that is let through. -/
structure Harmless (arg : Bytes) : Prop where
  printable : ∀ c ∈ arg, 0x20 ≤ c ∧ c ≤ 0x7E
  inert : ∀ c ∈ arg, c ∉ shellBytes
  inside : StaysInside arg

theorem find?_shellCharacters {arg : Bytes} :
    shellCharacters.find? (Bytes.includes arg) = none ↔ ∀ c ∈ arg, c ∉ shellBytes := by
  have hlength : ∀ m ∈ shellCharacters, m.length = 1 := by decide
  have hsingle (m : Bytes) (hm : m ∈ shellCharacters) : ∃ c, m = [c] :=
    List.length_eq_one_iff.1 (hlength m hm)
  rw [List.find?_eq_none]
  constructor
  · intro h c hc hshell
    obtain ⟨m, hm, hcm⟩ := List.mem_flatten.1 hshell
    obtain ⟨d, rfl⟩ := hsingle m hm
    obtain rfl := List.mem_singleton.1 hcm
    exact h _ hm (Bytes.includes_singleton.2 hc)
  · intro h m hm hincludes
    obtain ⟨c, rfl⟩ := hsingle m hm
    exact h c (Bytes.includes_singleton.1 hincludes) (List.mem_flatten.2 ⟨[c], hm, by simp⟩)

theorem isPlain_toNat (c : UInt8) : isPlain c.toNat = true ↔ 0x20 ≤ c ∧ c ≤ 0x7E := by
  rw [isPlain, Bool.and_eq_true, decide_eq_true_eq, decide_eq_true_eq, UInt8.le_iff_toNat_le,
    UInt8.le_iff_toNat_le]
  rfl

theorem find?_runes {arg : Bytes} :
    (Utf8.runes arg).find? (fun r => !isPlain r) = none ↔ ∀ c ∈ arg, 0x20 ≤ c ∧ c ≤ 0x7E := by
  have hrunes : (Utf8.runes arg).find? (fun r => !isPlain r) = none ↔
      ∀ r ∈ Utf8.runes arg, isPlain r = true := by
    simp [List.find?_eq_none]
  rw [hrunes]
  clear hrunes
  constructor
  · intro h
    induction arg using Utf8.text_induction with
    | nil => exact nofun
    | ill c rest hc hbad ih =>
        have hfirst := h Utf8.replacement (by simp [Utf8.runes, Utf8.scan_cons, hbad])
        exact absurd hfirst (by decide)
    | char s r rest hs ih =>
        have hcons : Utf8.runes (s ++ rest) = r :: Utf8.runes rest := by
          simp [Utf8.runes, hs.scan_append]
        rw [hcons, List.forall_mem_cons] at h
        have hlow : r < 0x80 := by
          have hplain := h.1
          simp only [isPlain, Bool.and_eq_true, decide_eq_true_eq] at hplain
          omega
        obtain ⟨c, -, rfl⟩ := hs.exists_ascii hlow
        refine List.forall_mem_append.2 ⟨List.forall_mem_singleton.2 ?_, ih h.2⟩
        exact (isPlain_toNat c).1 (hs.eq_toNat ▸ h.1)
  · intro h
    have hascii : ∀ c ∈ arg, c < 0x80 := fun c hc =>
      Nat.lt_of_le_of_lt (h c hc).2 (by decide)
    rw [Utf8.runes_ascii hascii, List.forall_mem_map]
    exact fun c hc => (isPlain_toNat c).2 (h c hc)

theorem argumentFlaw?_eq_none {arg : Bytes} : argumentFlaw? arg = none ↔ Harmless arg := by
  unfold argumentFlaw?
  constructor
  · intro h
    split at h
    · cases h
    next hshell =>
    split at h
    · cases h
    next hplain =>
    split at h
    · cases h
    next hup =>
    split at h
    · cases h
    next habsolute =>
    exact ⟨find?_runes.1 hplain, find?_shellCharacters.1 hshell,
      ⟨by simpa using habsolute, by simpa using hup⟩⟩
  · rintro ⟨hplain, hinert, habsolute, hup⟩
    rw [find?_shellCharacters.2 hinert]
    simp only [find?_runes.2 hplain]
    rw [if_neg (by simpa using hup), if_neg (by simp [habsolute])]

variable {line : Bytes} {timeout : Duration} {c : CheckCommand}

theorem parse_eq_ok_iff :
    parse line timeout = .ok c ↔ Unicode.words line = c.command :: c.args ∧ c.command ∈ allowed ∧
      (∀ arg ∈ c.args, Harmless arg) ∧
      c.timeout = if timeout ≤ 0 then defaultTimeout else timeout := by
  have hargs (args : List Bytes) :
      (args.findSome? fun arg => (argumentFlaw? arg).map (arg, ·)) = none ↔
        ∀ arg ∈ args, Harmless arg := by
    simp [List.findSome?_eq_none_iff, argumentFlaw?_eq_none]
  obtain ⟨command, args, limit⟩ := c
  unfold parse
  cases hwords : Unicode.words line with
  | nil => simp
  | cons first rest =>
      dsimp only
      by_cases hallowed : first ∈ allowed
      · rw [if_neg (by simpa using hallowed)]
        cases hflaw : rest.findSome? fun arg => (argumentFlaw? arg).map (arg, ·) with
        | some found =>
            have hnot := mt (hargs rest).2 (by simp [hflaw])
            simp only [reduceCtorEq, false_iff]
            rintro ⟨hsame, -, hall, -⟩
            obtain ⟨rfl, rfl⟩ := List.cons.inj hsame
            exact hnot hall
        | none =>
            have hall := (hargs rest).1 hflaw
            simp only [Except.ok.injEq, CheckCommand.mk.injEq, List.cons.injEq]
            constructor
            · rintro ⟨rfl, rfl, rfl⟩
              exact ⟨⟨rfl, rfl⟩, hallowed, hall, rfl⟩
            · rintro ⟨⟨rfl, rfl⟩, -, -, rfl⟩
              exact ⟨rfl, rfl, rfl⟩
      · rw [if_pos (by simpa using hallowed)]
        simp only [reduceCtorEq, false_iff]
        rintro ⟨hsame, hin, -⟩
        obtain ⟨rfl, -⟩ := List.cons.inj hsame
        exact hallowed hin

/-! ## The command line of a command -/

theorem isPlainWord_of_harmless {arg : Bytes} (hword : Unicode.IsWord arg) (h : Harmless arg) :
    Unicode.IsPlainWord arg :=
  ⟨hword, fun b hb => Nat.lt_of_le_of_lt (h.printable b hb).2 (by decide)⟩

theorem isPlainWord_of_allowed : ∀ command ∈ allowed, Unicode.IsPlainWord command := by
  have hne : ∀ command ∈ allowed, command ≠ [] := by decide
  have hbytes : ∀ command ∈ allowed, ∀ b ∈ command, b < 0x80 ∧ Unicode.isSpace b.toNat = false := by
    decide +kernel
  exact fun command h => ⟨⟨hne command h, fun b hb _ => (hbytes command h b hb).2⟩,
    fun b hb => (hbytes command h b hb).1⟩

theorem words_toBytes (h : parse line timeout = .ok c) :
    Unicode.words c.toBytes = c.command :: c.args := by
  obtain ⟨hwords, hallowed, hargs, -⟩ := parse_eq_ok_iff.1 h
  have hread : ∀ w ∈ c.command :: c.args, Unicode.IsWord w := by
    rw [← hwords]
    exact Unicode.isWord_of_mem_words
  refine Unicode.words_join (List.forall_mem_cons.2 ⟨isPlainWord_of_allowed _ hallowed, ?_⟩)
  exact fun arg harg =>
    isPlainWord_of_harmless (hread arg (List.mem_cons_of_mem _ harg)) (hargs arg harg)

theorem parse_toBytes (h : parse line timeout = .ok c) (timeout' : Duration) :
    parse c.toBytes timeout' =
      .ok { c with timeout := if timeout' ≤ 0 then defaultTimeout else timeout' } := by
  obtain ⟨-, hallowed, hargs, -⟩ := parse_eq_ok_iff.1 h
  exact parse_eq_ok_iff.2 ⟨words_toBytes h, hallowed, hargs, rfl⟩

/-! ## Values of flags -/

def FlagValue (arg value : Bytes) : Prop :=
  ∃ name : Bytes, '='.toUInt8 ∉ name ∧ arg = '-'.toUInt8 :: name ++ '='.toUInt8 :: value

/-- In a flag that stays inside, only the start of the value can lead out. -/
theorem staysInside_value_iff {arg value : Bytes} (harg : StaysInside arg)
    (hvalue : FlagValue arg value) :
    StaysInside value ↔ Path.isAbsolute value = false ∧
      (Path.components value).head? ≠ some Path.up := by
  obtain ⟨name, -, rfl⟩ := hvalue
  have hfront : '-'.toUInt8 :: name ++ '='.toUInt8 :: value =
      ('-'.toUInt8 :: name ++ ['='.toUInt8]) ++ value := by simp
  have htail : Path.up ∉ (Path.components value).tail := by
    intro hmem
    have hsuffix := Path.tail_components_suffix ('-'.toUInt8 :: name ++ ['='.toUInt8]) value
    rw [← hfront] at hsuffix
    exact harg.below (List.mem_of_mem_tail (hsuffix.subset hmem))
  have hhead : Path.up ∈ Path.components value ↔
      (Path.components value).head? = some Path.up := by
    obtain ⟨first, more, hparts⟩ : ∃ first more, Path.components value = first :: more :=
      List.exists_cons_of_ne_nil (Bytes.splitByte_ne_nil Path.slash value)
    rw [hparts, List.tail_cons] at htail
    rw [hparts, List.mem_cons, List.head?_cons, Option.some.injEq, eq_comm]
    exact or_iff_left htail
  constructor
  · exact fun h => ⟨h.relative, mt hhead.2 h.below⟩
  · exact fun h => ⟨h.1, mt hhead.1 h.2⟩

/-- What holds of every accepted line: the command is a known tool; the arguments are printable,
without blanks and shell characters, and lead nowhere outside of the working directory; and so does
the value of a flag unless it is absolute itself or its first component leads up.  The command line
of the command is accepted again, with the same command and arguments. -/
theorem parse_accepts (h : parse line timeout = .ok c) :
    c.command ∈ allowed ∧
      (∀ arg ∈ c.args, arg ≠ [] ∧ (∀ b ∈ arg, 0x21 ≤ b ∧ b ≤ 0x7E ∧ b ∉ shellBytes) ∧
        StaysInside arg ∧ ∀ value, FlagValue arg value →
          (StaysInside value ↔ Path.isAbsolute value = false ∧
            (Path.components value).head? ≠ some Path.up)) ∧
      ∀ timeout', ∃ c', parse c.toBytes timeout' = .ok c' ∧ c'.command = c.command ∧
        c'.args = c.args := by
  obtain ⟨hwords, hallowed, hargs, -⟩ := parse_eq_ok_iff.1 h
  refine ⟨hallowed, fun arg harg => ?_, fun timeout' => ⟨_, parse_toBytes h timeout', rfl, rfl⟩⟩
  have hharmless := hargs arg harg
  have hword : Unicode.IsWord arg := by
    refine Unicode.isWord_of_mem_words arg (s := line) ?_
    rw [hwords]
    exact List.mem_cons_of_mem _ harg
  refine ⟨hword.ne_nil, fun b hb => ?_, hharmless.inside,
    fun value => staysInside_value_iff hharmless.inside⟩
  obtain ⟨hlow, hhigh⟩ := hharmless.printable b hb
  have hblank : b.toNat ≠ 0x20 := by
    intro hblank
    have hsolid := hword.solid b hb (Nat.lt_of_le_of_lt hhigh (by decide))
    rw [hblank] at hsolid
    exact absurd hsolid (by decide)
  have hlow : 0x20 ≤ b.toNat := hlow
  exact ⟨Nat.lt_of_le_of_ne hlow (Ne.symm hblank), hhigh, hharmless.inert b hb⟩

def reportLine : Bytes := "go\tvet -json=out/report.json  ./... "

theorem parse_accepts_reportLine : ∃ c, parse reportLine 0 = .ok c ∧
    c.args = ["vet", "-json=out/report.json", "./..."] ∧ StaysInside "out/report.json" ∧
    ∃ c', parse c.toBytes 0 = .ok c' ∧ c'.command = c.command ∧ c'.args = c.args := by
  have hparse : parse reportLine 0 =
      .ok ⟨"go", ["vet", "-json=out/report.json", "./..."], defaultTimeout⟩ := by cbv
  obtain ⟨-, hargs, hagain⟩ := parse_accepts hparse
  obtain ⟨-, -, -, hvalue⟩ := hargs "-json=out/report.json" (by simp)
  have hinside := (hvalue "out/report.json" ⟨"json", by decide, by decide⟩).2 (by decide)
  exact ⟨_, hparse, rfl, hinside, hagain 0⟩

/-- A flag whose value is an absolute path, and one whose value leads up. -/
theorem parse_not_staysInside :
    (¬∀ (line : Bytes) (timeout : Duration) (c : CheckCommand), parse line timeout = .ok c →
      ∀ arg ∈ c.args, ∀ value, FlagValue arg value → StaysInside value) ∧
    parse "go vet -vettool=/usr/bin/evil ./..." 0 =
      .ok ⟨"go", ["vet", "-vettool=/usr/bin/evil", "./..."], defaultTimeout⟩ ∧
    parse "go build -o=../evil" 0 = .ok ⟨"go", ["build", "-o=../evil"], defaultTimeout⟩ := by
  have habsolute : parse "go vet -vettool=/usr/bin/evil ./..." 0 =
      .ok ⟨"go", ["vet", "-vettool=/usr/bin/evil", "./..."], defaultTimeout⟩ := by cbv
  refine ⟨fun hreal => ?_, habsolute, by cbv⟩
  have hinside := hreal _ _ _ habsolute "-vettool=/usr/bin/evil" (by simp) "/usr/bin/evil"
    ⟨"vettool", by decide, by decide⟩
  exact absurd hinside.relative (by decide)

end CheckCommand

end TagLoom

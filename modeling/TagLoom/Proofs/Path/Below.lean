import Mathlib.Data.List.Basic
import Mathlib.Data.List.Induction
import Mathlib.Tactic.ByContra
import TagLoom.Path

/-!
# Paths below a directory

A path below a directory is the directory's components followed by those of the relative path, so
the last component of a file's path is the last one of its path below the root, however either path
is spelled.  A path that goes up nowhere leads along its components, those left out that stay.
-/

namespace TagLoom

namespace Bytes

variable {sep : UInt8}

/-! ## Parts between separators -/

theorem splitByte_ne_nil (sep : UInt8) (s : Bytes) : splitByte sep s ≠ [] := by
  induction s with
  | nil => simp [splitByte]
  | cons c rest ih =>
      unfold splitByte
      split
      · simp
      · split <;> simp

theorem splitByte_cons (sep c : UInt8) (rest : Bytes) :
    ∃ part parts, splitByte sep rest = part :: parts ∧
      splitByte sep (c :: rest) =
        if c == sep then [] :: part :: parts else (c :: part) :: parts := by
  obtain ⟨part, parts, h⟩ := List.exists_cons_of_ne_nil (splitByte_ne_nil sep rest)
  exact ⟨part, parts, h, by rw [splitByte, h]⟩

theorem not_mem_of_mem_splitByte (s : Bytes) : ∀ part ∈ splitByte sep s, sep ∉ part := by
  induction s with
  | nil => simp [splitByte]
  | cons c rest ih =>
      obtain ⟨part, parts, hrest, hs⟩ := splitByte_cons sep c rest
      rw [hrest, List.forall_mem_cons] at ih
      rw [hs]
      split
      · exact List.forall_mem_cons.2 ⟨by simp, List.forall_mem_cons.2 ih⟩
      · next hc =>
        refine List.forall_mem_cons.2 ⟨?_, ih.2⟩
        rw [List.mem_cons]
        rintro (rfl | hmem)
        · simp at hc
        · exact ih.1 hmem

theorem splitByte_of_not_mem {part : Bytes} (h : sep ∉ part) : splitByte sep part = [part] := by
  induction part with
  | nil => rfl
  | cons c rest ih =>
      rw [List.mem_cons, not_or] at h
      have hc : (c == sep) = false := by simpa using Ne.symm h.1
      simp only [splitByte, ih h.2, hc, Bool.false_eq_true, if_false]

theorem splitByte_append_sep (s t : Bytes) :
    splitByte sep (s ++ sep :: t) = splitByte sep s ++ splitByte sep t := by
  induction s with
  | nil =>
      obtain ⟨part, parts, ht, hcons⟩ := splitByte_cons sep sep t
      simp [splitByte, ht]
  | cons c rest ih =>
      obtain ⟨part, parts, hrest, hcons⟩ := splitByte_cons sep c rest
      rw [hrest, List.cons_append] at ih
      rw [hcons]
      simp only [List.cons_append, splitByte, ih]
      split <;> rfl

theorem splitByte_append_cons {part : Bytes} (h : sep ∉ part) (rest : Bytes) :
    splitByte sep (part ++ sep :: rest) = part :: splitByte sep rest := by
  rw [splitByte_append_sep, splitByte_of_not_mem h, List.singleton_append]

theorem splitByte_concat {c : UInt8} (h : (c == sep) = false) (s : Bytes) :
    ∃ init part, splitByte sep (s ++ [c]) = init ++ [part ++ [c]] := by
  induction s with
  | nil => exact ⟨[], [], by simp [splitByte, h]⟩
  | cons d rest ih =>
      obtain ⟨init, part, hrest⟩ := ih
      cases init with
      | nil =>
          cases hd : d == sep with
          | true => exact ⟨[[]], part, by simp [splitByte, hrest, hd]⟩
          | false => exact ⟨[], d :: part, by simp [splitByte, hrest, hd]⟩
      | cons first more =>
          cases hd : d == sep with
          | true => exact ⟨[] :: first :: more, part, by simp [splitByte, hrest, hd]⟩
          | false => exact ⟨(d :: first) :: more, part, by simp [splitByte, hrest, hd]⟩

theorem splitByte_append (s t : Bytes) {init : List Bytes} {last : Bytes}
    (hs : splitByte sep s = init ++ [last]) (ht : sep ∉ t) :
    splitByte sep (s ++ t) = init ++ [last ++ t] := by
  induction s generalizing init last with
  | nil =>
      obtain ⟨rfl, rfl⟩ : init = [] ∧ last = [] := by
        simpa [splitByte, List.singleton_eq_append_iff] using hs
      simpa using splitByte_of_not_mem ht
  | cons c rest ih =>
      obtain ⟨part, parts, hrest, hcons⟩ := splitByte_cons sep c rest
      rw [hcons] at hs
      cases hc : c == sep with
      | true =>
          rw [hc, if_pos rfl] at hs
          obtain ⟨tail, rfl, hparts⟩ : ∃ tail, init = [] :: tail ∧ part :: parts = tail ++ [last] := by
            cases init with
            | nil => simp at hs
            | cons first tail => exact ⟨tail, by simp_all⟩
          rw [List.cons_append, splitByte, ih (hrest.trans hparts), hc]
          cases tail <;> rfl
      | false =>
          rw [hc, if_neg Bool.false_ne_true] at hs
          cases init with
          | nil =>
              obtain ⟨rfl, rfl⟩ : c :: part = last ∧ parts = [] := by simpa using hs
              have hrest' : splitByte sep rest = [] ++ [part] := hrest
              simp [splitByte, ih hrest', hc]
          | cons first tail =>
              obtain ⟨rfl, hparts⟩ : c :: part = first ∧ parts = tail ++ [last] := by simpa using hs
              have hrest' : splitByte sep rest = (part :: tail) ++ [last] := by rw [hrest, hparts]; rfl
              simp [splitByte, ih hrest', hc]

theorem splitByte_join {parts : List Bytes} (hne : parts ≠ []) (h : ∀ part ∈ parts, sep ∉ part) :
    splitByte sep (join [sep] parts) = parts := by
  induction parts with
  | nil => exact absurd rfl hne
  | cons part more ih =>
      rw [List.forall_mem_cons] at h
      cases more with
      | nil => simpa [join] using splitByte_of_not_mem h.1
      | cons next rest =>
          have hjoin : join [sep] (part :: next :: rest) =
              part ++ sep :: join [sep] (next :: rest) := by
            simp [join]
          rw [hjoin, splitByte_append_cons h.1, ih (by simp) h.2]

theorem join_concat_append (sep : Bytes) (parts : List Bytes) (s t : Bytes) :
    join sep (parts ++ [s ++ t]) = join sep (parts ++ [s]) ++ t := by
  induction parts with
  | nil => simp [join]
  | cons part more ih =>
      have hcons (last : Bytes) :
          join sep (part :: (more ++ [last])) = part ++ sep ++ join sep (more ++ [last]) := by
        cases more <;> simp [join]
      rw [List.cons_append, List.cons_append, hcons, hcons, ih, List.append_assoc _ _ t]

theorem join_append (sep : Bytes) {as bs : List Bytes} (ha : as ≠ []) (hb : bs ≠ []) :
    join sep (as ++ bs) = join sep as ++ sep ++ join sep bs := by
  induction as with
  | nil => exact absurd rfl ha
  | cons a more ih =>
      cases more with
      | nil =>
          cases bs with
          | nil => exact absurd rfl hb
          | cons b bs => simp [join]
      | cons next rest =>
          have hcons (after : List Bytes) :
              join sep (a :: next :: after) = a ++ sep ++ join sep (next :: after) := by
            simp [join]
          rw [List.cons_append, List.cons_append, hcons, hcons, ← List.cons_append, ih (by simp)]
          simp only [List.append_assoc]

end Bytes

namespace Path

/-! ## The last component -/

theorem base_concat_slash {s : Bytes} (h : s ≠ []) : base (s ++ [slash]) = base s := by
  have htrim : Bytes.trimRightWhere (· == slash) (s ++ [slash]) =
      Bytes.trimRightWhere (· == slash) s := by simp [Bytes.trimRightWhere]
  have hs : s.isEmpty = false := by simpa using h
  have hs' : (s ++ [slash]).isEmpty = false := by simp
  simp only [base, htrim, hs, hs']

theorem base_concat {c : UInt8} (h : (c == slash) = false) (s : Bytes) :
    ∃ init part, components (s ++ [c]) = init ++ [part ++ [c]] ∧ base (s ++ [c]) = part ++ [c] := by
  obtain ⟨init, part, hsplit⟩ := Bytes.splitByte_concat h s
  have htrim : Bytes.trimRightWhere (· == slash) (s ++ [c]) = s ++ [c] := by
    simp [Bytes.trimRightWhere, h]
  refine ⟨init, part, hsplit, ?_⟩
  rw [base, htrim, if_neg (by simp), if_neg (by simp), components, hsplit, List.getLastD_concat]

theorem base_ne_nil (s : Bytes) : base s ≠ [] := by
  induction s using List.reverseRecOn with
  | nil => decide
  | append_singleton t c ih =>
      cases hc : c == slash with
      | true =>
          obtain rfl := beq_iff_eq.1 hc
          cases t with
          | nil => decide
          | cons d rest => rwa [base_concat_slash (by simp)]
      | false =>
          obtain ⟨_, part, -, hbase⟩ := base_concat hc t
          rw [hbase]
          simp

theorem base_eq_of_getLast? {s part : Bytes} (h : (components s).getLast? = some part)
    (hne : part ≠ []) : base s = part := by
  induction s using List.reverseRecOn with
  | nil => simp [components, Bytes.splitByte, hne.symm] at h
  | append_singleton t c _ =>
      cases hc : c == slash with
      | true =>
          rw [beq_iff_eq.1 hc, components, Bytes.splitByte_append_sep, Bytes.splitByte,
            List.getLast?_concat] at h
          exact absurd (Option.some.inj h).symm hne
      | false =>
          obtain ⟨init, last, hsplit, hbase⟩ := base_concat hc t
          rw [hsplit, List.getLast?_concat] at h
          rw [hbase, Option.some.inj h]

theorem push_nil (rooted : Bool) (stack : List Bytes) : push rooted stack [] = stack := by
  simp [push]

/-- The components of a text lead where those up to its last component lead, and then there. -/
theorem foldl_push_components (rooted : Bool) (s : Bytes) :
    (components s).foldl (push rooted) [] = [] ∨
      ∃ stack, (components s).foldl (push rooted) [] = push rooted stack (base s) := by
  induction s using List.reverseRecOn with
  | nil => exact .inl (by simp [components, Bytes.splitByte, push])
  | append_singleton t c ih =>
      cases hc : c == slash with
      | true =>
          obtain rfl := beq_iff_eq.1 hc
          have hfold : (components (t ++ [slash])).foldl (push rooted) [] =
              (components t).foldl (push rooted) [] := by
            rw [components, Bytes.splitByte_append_sep, Bytes.splitByte, List.foldl_append,
              List.foldl_cons, List.foldl_nil, push_nil, components]
          rw [hfold]
          cases t with
          | nil => exact .inl (by simp [components, Bytes.splitByte, push])
          | cons d rest => rwa [base_concat_slash (by simp)]
      | false =>
          obtain ⟨init, last, hsplit, hbase⟩ := base_concat hc t
          rw [hbase, hsplit, List.foldl_append]
          exact .inr ⟨_, rfl⟩

theorem getLast?_parts {s : Bytes} (hne : (ofBytes s).parts ≠ []) (hdot : base s ≠ ".")
    (hup : base s ≠ up) : (ofBytes s).parts.getLast? = some (base s) := by
  rcases foldl_push_components (isAbsolute s) s with hnil | ⟨stack, hstack⟩
  · exact absurd (by simp [ofBytes, hnil]) hne
  · have hpush : push (isAbsolute s) stack (base s) = base s :: stack := by
      have hempty : (base s).isEmpty = false := by simpa using base_ne_nil s
      have hdot' : (base s == Bytes.ofString ".") = false := by simpa using hdot
      have hup' : (base s == up) = false := by simpa using hup
      simp only [push, hempty, hdot', hup', Bool.or_self, Bool.false_eq_true, if_false]
    simp [ofBytes, hstack, hpush]

theorem tail_components_suffix (s t : Bytes) :
    (components t).tail <:+ (components (s ++ t)).tail := by
  induction s with
  | nil => exact List.suffix_refl _
  | cons c s ih =>
      obtain ⟨part, parts, hrest, hcons⟩ := Bytes.splitByte_cons slash c (s ++ t)
      have ih : (components t).tail <:+ parts := by rwa [components, components, hrest] at ih
      have hwhole : components (c :: s ++ t) =
          if c == slash then [] :: part :: parts else (c :: part) :: parts := hcons
      rw [hwhole]
      split
      · exact ih.trans (List.suffix_cons part parts)
      · exact ih

/-! ## Relative paths -/

theorem dropShared_append (as bs : List Bytes) :
    ∃ shared, as = shared ++ (dropShared as bs).1 ∧ bs = shared ++ (dropShared as bs).2 := by
  induction as, bs using dropShared.induct with
  | case1 a as b bs h ih =>
      obtain rfl := beq_iff_eq.1 h
      obtain ⟨shared, has, hbs⟩ := ih
      rw [dropShared, if_pos h]
      exact ⟨a :: shared, by rw [List.cons_append, ← has], by rw [List.cons_append, ← hbs]⟩
  | case2 a as b bs h => exact ⟨[], by rw [dropShared, if_neg h]; exact ⟨rfl, rfl⟩⟩
  | case3 as bs h => exact ⟨[], by rw [dropShared.eq_2 as bs h]; exact ⟨rfl, rfl⟩⟩

/-- A relative path that does not lead out of its directory goes on where the directory ends. -/
theorem parts_of_relative? {dir target : Bytes} {rel : Path} (h : relative? dir target = some rel)
    (hin : rel.leavesRoot = false) :
    rel.rooted = false ∧ (ofBytes target).rooted = (ofBytes dir).rooted ∧
      (ofBytes target).parts = (ofBytes dir).parts ++ rel.parts := by
  obtain ⟨shared, hdir, htarget⟩ := dropShared_append (ofBytes dir).parts (ofBytes target).parts
  unfold relative? at h
  dsimp only at h
  split at h
  · simp at h
  · next hrooted =>
    split at h
    · simp at h
    · obtain rfl := Option.some.inj h
      have habove : (dropShared (ofBytes dir).parts (ofBytes target).parts).1 = [] := by
        cases hdrop : (dropShared (ofBytes dir).parts (ofBytes target).parts).1 with
        | nil => rfl
        | cons part rest => simp [leavesRoot, hdrop] at hin
      refine ⟨rfl, by simpa using Eq.symm (by simpa using hrooted), ?_⟩
      rw [habove, List.append_nil] at hdir
      simp only [habove, List.map_nil, List.nil_append]
      rwa [← hdir] at htarget

/-! ## Names -/

/-- What an entry of a directory may be called. -/
def IsName (part : Bytes) : Prop :=
  part ≠ [] ∧ part ≠ "." ∧ part ≠ up ∧ slash ∉ part

instance (part : Bytes) : Decidable (IsName part) := instDecidableAnd

/-- The components of a path, the last one first: names below steps up. -/
def Shaped (stack : List Bytes) : Prop :=
  ∃ names k, stack = names ++ List.replicate k up ∧ ∀ name ∈ names, IsName name

theorem Shaped.push {stack : List Bytes} (h : Shaped stack) (rooted : Bool) {part : Bytes}
    (hpart : slash ∉ part) : Shaped (push rooted stack part) := by
  obtain ⟨names, k, rfl, hnames⟩ := h
  unfold Path.push
  split
  · exact ⟨names, k, rfl, hnames⟩
  · next hsolid =>
    rw [Bool.or_eq_true, not_or] at hsolid
    split
    · cases names with
      | nil =>
          cases k with
          | zero => cases rooted with
            | true => exact ⟨[], 0, rfl, by simp⟩
            | false => exact ⟨[], 1, rfl, by simp⟩
          | succ k => exact ⟨[], k + 2, by simp [List.replicate_succ], by simp⟩
      | cons name names =>
          rw [List.forall_mem_cons] at hnames
          have hname : (name == up) = false := by simpa using hnames.1.2.2.1
          refine ⟨names, k, ?_, hnames.2⟩
          simp only [List.cons_append, hname, Bool.false_eq_true, if_false]
    · next hup =>
      refine ⟨part :: names, k, rfl, List.forall_mem_cons.2 ⟨?_, hnames⟩⟩
      exact ⟨by simpa using hsolid.1, by simpa using hsolid.2, by simpa using hup, hpart⟩

theorem parts_shaped (s : Bytes) :
    ∃ k names, (ofBytes s).parts = List.replicate k up ++ names ∧ ∀ name ∈ names, IsName name := by
  have hfold : ∀ (cs stack : List Bytes), (∀ part ∈ cs, slash ∉ part) → Shaped stack →
      Shaped (cs.foldl (push (isAbsolute s)) stack) := by
    intro cs
    induction cs with
    | nil => exact fun _ _ h => h
    | cons c cs ih =>
        intro stack hcs hstack
        rw [List.forall_mem_cons] at hcs
        exact ih _ hcs.2 (hstack.push _ hcs.1)
  obtain ⟨names, k, hstack, hnames⟩ := hfold (components s) []
    (Bytes.not_mem_of_mem_splitByte s) ⟨[], 0, rfl, by simp⟩
  refine ⟨k, names.reverse, ?_, fun name h => hnames name (List.mem_reverse.1 h)⟩
  simp only [ofBytes, hstack, List.reverse_append, List.reverse_replicate]

theorem isName_of_relative? {dir target : Bytes} {rel : Path} (h : relative? dir target = some rel)
    (hin : rel.leavesRoot = false) : ∀ part ∈ rel.parts, IsName part := by
  obtain ⟨-, -, hparts⟩ := parts_of_relative? h hin
  obtain ⟨k, names, hshape, hnames⟩ := parts_shaped target
  rw [hparts] at hshape
  rcases List.append_eq_append_iff.1 hshape with ⟨more, hk, hrel⟩ | ⟨more, -, hrel⟩
  · cases more with
    | nil =>
        rw [hrel]
        exact hnames
    | cons part more =>
        have hpart : part = up :=
          List.eq_of_mem_replicate (hk ▸ List.mem_append_right _ List.mem_cons_self)
        simp [leavesRoot, hrel, hpart] at hin
  · exact fun part hpart => hnames part (hrel ▸ List.mem_append_right _ hpart)

/-! ## Files below a directory -/

/-- Whether a text names a file below a directory: another place than the directory, and by a name
and not by `.` or `..`. -/
def IsFileBelow (dir path : Bytes) : Prop :=
  ofBytes path ≠ ofBytes dir ∧ base path ≠ "." ∧ base path ≠ up

instance (dir path : Bytes) : Decidable (IsFileBelow dir path) := instDecidableAnd

theorem getLast?_relative? {dir path : Bytes} {rel : Path} (h : relative? dir path = some rel)
    (hin : rel.leavesRoot = false) (hfile : IsFileBelow dir path) :
    rel.parts.getLast? = some (base path) := by
  obtain ⟨-, hsame, hparts⟩ := parts_of_relative? h hin
  obtain ⟨hother, hdot, hup⟩ := hfile
  have hrel : rel.parts ≠ [] := by
    intro hnil
    rw [hnil, List.append_nil] at hparts
    refine hother ?_
    cases hp : ofBytes path
    cases hd : ofBytes dir
    simp_all
  have hne : (ofBytes path).parts ≠ [] := by
    rw [hparts]
    exact List.append_ne_nil_of_right_ne_nil _ hrel
  rw [← getLast?_parts hne hdot hup, hparts, List.getLast?_append,
    Option.or_of_isSome (by simpa using hrel)]

theorem toBytes_relative? {dir path : Bytes} {rel : Path} (h : relative? dir path = some rel)
    (hin : rel.leavesRoot = false) (hfile : IsFileBelow dir path) :
    rel.parts ≠ [] ∧ rel.toBytes = Bytes.join [slash] rel.parts := by
  have hlast := getLast?_relative? h hin hfile
  have hne : rel.parts ≠ [] := by
    rintro hnil
    rw [hnil] at hlast
    cases hlast
  refine ⟨hne, ?_⟩
  rw [toBytes, (parts_of_relative? h hin).1, if_neg Bool.false_ne_true, if_neg (by simpa using hne)]

theorem components_relative? {dir path : Bytes} {rel : Path} (h : relative? dir path = some rel)
    (hin : rel.leavesRoot = false) (hfile : IsFileBelow dir path) :
    components rel.toBytes = rel.parts := by
  obtain ⟨hne, hspelled⟩ := toBytes_relative? h hin hfile
  rw [hspelled, components, Bytes.splitByte_join hne fun part hpart =>
    (isName_of_relative? h hin part hpart).2.2.2]

theorem base_relative? {dir path : Bytes} {rel : Path} (h : relative? dir path = some rel)
    (hin : rel.leavesRoot = false) (hfile : IsFileBelow dir path) :
    base rel.toBytes = base path :=
  base_eq_of_getLast? (by rw [components_relative? h hin hfile, getLast?_relative? h hin hfile])
    (base_ne_nil path)

/-! ## Components that lead somewhere -/

/-- Whether a component is neither empty nor the one that stays. -/
def isSolid (part : Bytes) : Bool := !(part.isEmpty || part == Bytes.ofString ".")

/-- Where components lead that go up nowhere. -/
def solid (parts : List Bytes) : List Bytes := parts.filter isSolid

theorem solid_cons_of_not {part : Bytes} (h : isSolid part = false) (parts : List Bytes) :
    solid (part :: parts) = solid parts := List.filter_cons_of_neg (by simp [h])

theorem solid_cons {part : Bytes} (h : isSolid part = true) (parts : List Bytes) :
    solid (part :: parts) = part :: solid parts := List.filter_cons_of_pos h

theorem solid_append (as bs : List Bytes) : solid (as ++ bs) = solid as ++ solid bs :=
  List.filter_append ..

theorem IsName.isSolid {part : Bytes} (h : IsName part) : isSolid part = true := by
  have hdot : (part == Bytes.ofString ".") = false := by simpa using h.2.1
  simp [Path.isSolid, h.1, hdot]

theorem solid_of_names {parts : List Bytes} (h : ∀ part ∈ parts, IsName part) :
    solid parts = parts := List.filter_eq_self.2 fun part hpart => (h part hpart).isSolid

theorem isName_of_mem_solid {parts : List Bytes} (hslash : ∀ part ∈ parts, slash ∉ part)
    (hup : up ∉ parts) : ∀ part ∈ solid parts, IsName part := by
  intro part hpart
  obtain ⟨hmem, hsolid⟩ := List.mem_filter.1 hpart
  simp only [isSolid, Bool.not_eq_true', Bool.or_eq_false_iff, List.isEmpty_eq_false_iff,
    beq_eq_false_iff_ne] at hsolid
  exact ⟨hsolid.1, hsolid.2, fun heq => hup (heq ▸ hmem), hslash part hmem⟩

theorem foldl_push (rooted : Bool) {parts : List Bytes} (hup : up ∉ parts) (stack : List Bytes) :
    parts.foldl (push rooted) stack = (solid parts).reverse ++ stack := by
  induction parts generalizing stack with
  | nil => rfl
  | cons part parts ih =>
      rw [List.mem_cons, not_or] at hup
      rw [List.foldl_cons, ih hup.2]
      unfold push
      cases hsolid : isSolid part with
      | false =>
          have hdrop : (part.isEmpty || part == Bytes.ofString ".") = true := by
            rwa [isSolid, Bool.not_eq_false'] at hsolid
          rw [if_pos hdrop, solid_cons_of_not hsolid]
      | true =>
          have hkeep : (part.isEmpty || part == Bytes.ofString ".") = false := by
            rwa [isSolid, Bool.not_eq_true'] at hsolid
          have hname : (part == up) = false := by simpa using Ne.symm hup.1
          rw [hkeep, hname, if_neg Bool.false_ne_true, if_neg Bool.false_ne_true,
            solid_cons hsolid, List.reverse_cons, List.append_assoc]
          rfl

theorem components_slash (s : Bytes) : components (slash :: s) = [] :: components s :=
  Bytes.splitByte_append_sep [] s

theorem components_append_slash (s t : Bytes) :
    components (s ++ slash :: t) = components s ++ components t :=
  Bytes.splitByte_append_sep s t

theorem components_join {parts : List Bytes} (hne : parts ≠ [])
    (h : ∀ part ∈ parts, IsName part) : components (Bytes.join [slash] parts) = parts :=
  Bytes.splitByte_join hne fun part hpart => (h part hpart).2.2.2

theorem solid_components_slashes {s : Bytes} (h : ∀ c ∈ s, c = slash) :
    solid (components s) = [] := by
  induction s with
  | nil => rfl
  | cons c rest ih =>
      rw [List.forall_mem_cons] at h
      rw [h.1, components_slash, solid_cons_of_not rfl]
      exact ih h.2

theorem solid_components_append_slashes (s : Bytes) {t : Bytes} (h : ∀ c ∈ t, c = slash) :
    solid (components (s ++ t)) = solid (components s) := by
  cases t with
  | nil => rw [List.append_nil]
  | cons c rest =>
      rw [List.forall_mem_cons] at h
      rw [h.1, components_append_slash, solid_append, solid_components_slashes h.2,
        List.append_nil]

theorem clean_eq {s : Bytes} (hup : up ∉ components s) (hne : solid (components s) ≠ []) :
    clean s = Bytes.when (isAbsolute s) [slash] ++ Bytes.join [slash] (solid (components s)) := by
  have hparts : (ofBytes s).parts = solid (components s) := by
    simp [ofBytes, foldl_push _ hup]
  have hrooted : (ofBytes s).rooted = isAbsolute s := rfl
  rw [clean, toBytes, hparts, hrooted]
  cases isAbsolute s with
  | true => rfl
  | false =>
      have hne' : (solid (components s)).isEmpty = false := by simpa using hne
      rw [hne', if_neg Bool.false_ne_true, if_neg Bool.false_ne_true]
      rfl

theorem join_eq {dir name : Bytes} (hdir : dir ≠ []) (hup : up ∉ components dir)
    (hname : IsName name) :
    join dir name = Bytes.when (isAbsolute dir) [slash] ++
      Bytes.join [slash] (solid (components dir) ++ [name]) := by
  have hcomponents : components (dir ++ slash :: name) = components dir ++ [name] := by
    rw [components_append_slash, components, components, Bytes.splitByte_of_not_mem hname.2.2.2]
  have hsolid : solid (components (dir ++ slash :: name)) = solid (components dir) ++ [name] := by
    have hlast : solid [name] = [name] := solid_of_names (by simpa using hname)
    rw [hcomponents, solid_append, hlast]
  have habsolute : isAbsolute (dir ++ slash :: name) = isAbsolute dir := by
    rw [isAbsolute, isAbsolute, List.head?_append_of_ne_nil _ hdir]
  have hup' : up ∉ components (dir ++ slash :: name) := by
    rw [hcomponents, List.mem_append, List.mem_singleton, not_or]
    exact ⟨hup, hname.2.2.1.symm⟩
  rw [join, if_neg (by simpa using hdir), if_neg (by simpa using hname.1),
    clean_eq hup' (by rw [hsolid]; simp), hsolid, habsolute]

theorem join_names {parts : List Bytes} (hne : parts ≠ []) (h : ∀ part ∈ parts, IsName part) :
    Bytes.join [slash] parts ≠ [] ∧ isAbsolute (Bytes.join [slash] parts) = false := by
  obtain ⟨part, rest, rfl⟩ := List.exists_cons_of_ne_nil hne
  obtain ⟨hpart, -, -, hslash⟩ := h part List.mem_cons_self
  obtain ⟨c, cs, rfl⟩ := List.exists_cons_of_ne_nil hpart
  obtain ⟨more, hmore⟩ : ∃ more, Bytes.join [slash] ((c :: cs) :: rest) = c :: more := by
    cases rest with
    | nil => exact ⟨cs, by simp [Bytes.join]⟩
    | cons next rest => exact ⟨_, by simp [Bytes.join]; rfl⟩
  have hc : c ≠ slash := fun heq => hslash (heq ▸ List.mem_cons_self)
  rw [hmore]
  exact ⟨List.cons_ne_nil _ _, by simpa [isAbsolute] using hc⟩

end Path

end TagLoom

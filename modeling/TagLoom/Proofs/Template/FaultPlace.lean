import TagLoom.Proofs.Path.Below
import TagLoom.Proofs.Template.QuotedValue
import TagLoom.Proofs.Template.Sequence

/-!
# Where faults can be

Faults are noted where a token, an attribute, the value of one or an interpolation in one starts.
Before such a place the source has only whole characters, whatever bytes it is made of, and a place
of that kind is a line of the source and a column of that line, or the end of it.
-/

namespace TagLoom

open Scan (firstLine)

namespace Pos

variable {source : Bytes} {o : Nat}

/-! ## Lines and columns -/

theorem lastLine_append_newline (u w : Bytes) : lastLine (u ++ '\n'.toUInt8 :: w) = lastLine w := by
  have hstop : ('\n'.toUInt8 :: u.reverse).takeWhile (· != '\n'.toUInt8) = [] :=
    List.takeWhile_cons_of_neg (by simp)
  rw [lastLine, lastLine, List.reverse_append, List.reverse_cons, List.append_assoc,
    List.singleton_append, List.takeWhile_append, hstop]
  split
  · rename_i hlen
    rw [(List.takeWhile_prefix _).eq_of_length hlen, List.append_nil]
  · rfl

theorem lastLine_of_notMem {u : Bytes} (h : '\n'.toUInt8 ∉ u) : lastLine u = u := by
  have hline := lastLine_append_of_notMem h []
  rwa [List.nil_append] at hline

theorem lines_append (u w : Bytes) :
    (Bytes.lines (u ++ w))[u.count '\n'.toUInt8]? = some (lastLine u ++ firstLine w) := by
  induction hn : u.length using Nat.strongRecOn generalizing u with
  | _ n ih =>
      subst hn
      obtain ⟨hu, -⟩ | ⟨v, hv⟩ := Scan.firstLine_append u
      · rw [List.count_eq_zero.2 hu, lastLine_of_notMem hu]
        obtain ⟨hw, heq⟩ | ⟨z, hz⟩ := Scan.firstLine_append w
        · rw [Bytes.lines, Bytes.splitByte_of_not_mem (by simp [hu, hw]), heq]
          rfl
        · have hfront : '\n'.toUInt8 ∉ u ++ firstLine w := by
            simp [hu, Scan.newline_notMem_firstLine]
          have hsplit : u ++ w = u ++ firstLine w ++ '\n'.toUInt8 :: z := by
            rw [List.append_assoc, ← hz]
          rw [Bytes.lines, hsplit, Bytes.splitByte_append_cons hfront]
          rfl
      · have hfront := Scan.newline_notMem_firstLine u
        generalize firstLine u = t at hv hfront
        subst hv
        have hrest := ih v.length (by simp; omega) v rfl
        rw [Bytes.lines, List.append_assoc, List.cons_append, Bytes.splitByte_append_cons hfront,
          List.count_append, List.count_eq_zero.2 hfront, List.count_cons_self, Nat.zero_add,
          List.getElem?_cons_succ, lastLine_append_newline]
        exact hrest

/-- Only whole characters stand before an offset of a source. -/
def Whole (source : Bytes) (o : Nat) : Prop := Fresh source o ∨ Template.AsciiAt source o

theorem lastLine_suffix (u : Bytes) : lastLine u <:+ u := by
  rw [← List.reverse_prefix, lastLine, List.reverse_reverse]
  exact List.takeWhile_prefix _

theorem Whole.count_le (h : Whole source o) :
    Utf8.count (lastLine (source.take o)) ≤
      Utf8.count (lastLine (source.take o) ++ firstLine (source.drop o)) := by
  rcases h with hfresh | ⟨c, hc, hascii⟩
  · by_cases hlt : o < source.length
    · have hlast : ∀ c, (lastLine (source.take o)).getLast? = some c → c < 0x80 := by
        intro c hc
        obtain ⟨v, hv⟩ := lastLine_suffix (source.take o)
        apply hfresh.getLast hlt
        rw [← hv, List.getLast?_append, hc]
        rfl
      rw [Utf8.count_append_of_getLast hlast]
      exact Nat.le_add_right _ _
    · have hnil : source.drop o = [] := List.drop_eq_nil_of_le (Nat.le_of_not_lt hlt)
      simp [hnil, firstLine]
  · have hdrop : source.drop o = c :: source.drop (o + 1) := by
      rw [List.drop_eq_getElem?_toList_append, hc]
      rfl
    rw [hdrop]
    by_cases hline : c = '\n'.toUInt8
    · simp [hline, firstLine]
    · have hfirst : firstLine (c :: source.drop (o + 1)) = c :: firstLine (source.drop (o + 1)) :=
        List.takeWhile_cons_of_pos (bne_iff_ne.2 hline)
      rw [hfirst, Utf8.count, Utf8.count, Utf8.scan_append _ _ (Utf8.isContinuation_ascii hascii),
        List.length_append]
      exact Nat.le_add_right _ _

/-- A place in a source is in one of its lines, or right behind it. -/
theorem Whole.column_le (h : Whole source o) :
    ∃ line, (Bytes.lines source)[(ofOffset source o).line - 1]? = some line ∧
      (ofOffset source o).column ≤ Utf8.count line + 1 := by
  have hline := lines_append (source.take o) (source.drop o)
  rw [List.take_append_drop] at hline
  exact ⟨_, hline, Nat.succ_le_succ h.count_le⟩

end Pos

namespace Name

theorem lt_of_isPart {c : UInt8} (h : isPart c = true) : c < 0x80 := by
  have hmarks : '0'.toUInt8 = 48 ∧ '9'.toUInt8 = 57 := by decide
  simp only [isPart, Bytes.isDigit, hmarks, Bool.or_eq_true, Bool.and_eq_true,
    decide_eq_true_eq, beq_iff_eq] at h
  rcases h with (((hstart | hdigit) | rfl) | rfl) | rfl
  · exact lt_of_isStart hstart
  · grind
  · decide
  · decide
  · decide

theorem isPart_of_mem_leading {c : UInt8} {s : Bytes} (h : c ∈ leading s) : isPart c = true := by
  cases s with
  | nil => cases h
  | cons d rest =>
      rw [leading] at h
      split at h
      · rename_i hstart
        rcases List.mem_cons.1 h with rfl | hrest
        · simp [isPart, hstart]
        · exact List.mem_takeWhile_imp hrest
      · cases h

end Name

namespace Template

open Pos (Fresh Whole)
open Bytes (EndsAscii)

variable {source s rest : Bytes} {c : UInt8} {o : Nat}

/-! ## Problems in a tag -/

theorem fresh_behind_name (h : source.drop o = s) (hname : Name.leading s ≠ []) :
    Fresh source (o + (Name.leading s).length) := by
  obtain ⟨z, hz⟩ := leading_starts s
  obtain ⟨u, d, hsplit⟩ := List.eq_nil_or_concat _ |>.resolve_left hname
  rw [List.concat_eq_append] at hsplit
  have hpart : Name.isPart d = true := Name.isPart_of_mem_leading (by rw [hsplit]; simp)
  rw [hsplit, List.length_append, List.length_singleton]
  refine .inr (.of_drop h (.of_get (c := d) ?_ (Name.lt_of_isPart hpart)))
  rw [← hz, hsplit]
  simp

theorem fresh_behind_gap (h : source.drop o = s) (hfresh : Fresh source o) :
    Fresh source (o + (s.takeWhile Name.isSpace).length) :=
  fresh_behind_blanks hfresh (List.all_eq_true.1 List.all_takeWhile)
    (h ▸ List.takeWhile_prefix _)

theorem fresh_before_value {n : Nat} {value : Bytes} (h : source.drop o = s)
    (hs : s.dropWhile Name.isSpace = c :: rest) (hn : 0 < n)
    (hafter : (rest.drop (n - 1)).dropWhile Name.isSpace = '='.toUInt8 :: value) :
    Fresh source (o + (s.takeWhile Name.isSpace).length + (n + ((rest.drop (n - 1)).takeWhile
      Name.isSpace).length + 1 + (value.takeWhile Name.isSpace).length)) := by
  have hname : source.drop (o + ((s.takeWhile Name.isSpace).length + n)) = rest.drop (n - 1) :=
    drop_add h (drop_after_name hs hn)
  have hequals := drop_add hname ((drop_takeWhile Name.isSpace _).trans hafter)
  have hvalue := drop_add hequals (m := 1) (List.drop_succ_cons ..)
  have hfresh : Fresh source (o + ((s.takeWhile Name.isSpace).length + n) +
      ((rest.drop (n - 1)).takeWhile Name.isSpace).length + 1) :=
    .inr (.of_drop hequals (.of_get (n := 0) (c := '='.toUInt8) rfl (by decide)))
  have hgap := fresh_behind_gap hvalue hfresh
  rw [List.drop_zero] at hgap
  simp only [Nat.add_assoc] at hgap ⊢
  exact hgap

theorem TagTail.problem_resync (problem : Nat × TagProblem) (n : Nat) (s : Bytes) :
    (TagTail.resync problem n s).problem = some problem := by
  rw [TagTail.resync]
  split <;> rfl

theorem fresh_problem (h : source.drop o = s) (hfresh : Fresh source o) :
    ∀ p, (lexAttrs o s).problem = some p → p.2 ≠ .unterminated → Fresh source p.1 := by
  fun_induction lexAttrs o s with
  | case1 =>
      intro p hp hne
      obtain rfl := Option.some.inj hp
      exact absurd rfl hne
  | case2 | case3 => rintro _ ⟨⟩
  | case4 =>
      intro p hp _
      obtain rfl := Option.some.inj hp
      exact fresh_behind_gap h hfresh
  | case5 _ s gap c rest hs _ _ start name hname n after _ ih
  | case6 _ s gap c rest hs _ _ start name hname n after _ _ _ _ ih =>
      have hn : 0 < n := List.length_pos_iff.2 (by simpa using hname)
      have hplace : source.drop start = c :: rest :=
        drop_add h ((drop_takeWhile Name.isSpace s).trans hs)
      refine ih ?_ (fresh_behind_name hplace (by simpa using hname))
      rw [← List.drop_drop, hplace, List.drop_cons hn]
  | case7 _ s gap c rest hs _ _ start name hname n after space e _ hafter he
  | case12 _ s gap c rest hs _ _ start name hname n after space e _ hafter he =>
      have hn : 0 < n := List.length_pos_iff.2 (by simpa using hname)
      obtain rfl : e = '='.toUInt8 := by simpa using he
      intro p hp _
      obtain rfl := Option.some.inj hp
      exact fresh_before_value h hs hn hafter
  | case8 _ s gap c rest hs _ _ start name hname n after space e _ hafter he
  | case10 _ s gap c rest hs _ _ start name hname n after space e _ hafter he =>
      have hn : 0 < n := List.length_pos_iff.2 (by simpa using hname)
      obtain rfl : e = '='.toUInt8 := by simpa using he
      intro p hp _
      rw [TagTail.problem_resync] at hp
      obtain rfl := Option.some.inj hp
      exact fresh_before_value h hs hn hafter
  | case9 _ s gap c rest hs _ _ start name hname n after space e _ hafter he _ k value q inner
      hvalue hquote m hm ih =>
      have hn : 0 < n := List.length_pos_iff.2 (by simpa using hname)
      have hplace : source.drop (start + k) = q :: inner := by
        rw [Nat.add_assoc]
        exact drop_add h ((drop_before_value hs hn hafter).trans hvalue)
      have hend : source[start + k + m + 1]? = some q := by
        obtain ⟨groups, hpasses⟩ := Scan.passes_of_quoted? hm 0
        rw [Nat.add_assoc (start + k), ← List.getElem?_drop, hplace]
        exact hpasses.getElem?
      have hascii : q < 0x80 := by
        simp only [Bool.or_eq_true, beq_iff_eq] at hquote
        rcases hquote with rfl | rfl <;> decide
      refine ih ?_ (.inr (.of_get hend hascii))
      have hnext := drop_add h (drop_of_dropWhile hs (k + m + 1))
      rw [← hnext]
      congr 1
      simp only [start, gap]
      omega
  | case11 _ s gap c rest hs _ _ start name hname n after space e _ hafter he _ k value q inner
      hvalue _ hbrace m hm ih =>
      have hn : 0 < n := List.length_pos_iff.2 (by simpa using hname)
      have hplace : source.drop (start + k) = q :: inner := by
        rw [Nat.add_assoc]
        exact drop_add h ((drop_before_value hs hn hafter).trans hvalue)
      have hend : source[start + k + m]? = some '\x7d'.toUInt8 := by
        have hok : (Scan.closeBraces false 0 value).2 = true := by rw [← Scan.braces, hm]
        have hclose := Scan.head?_drop_closeBraces hok
        rwa [← Scan.braces, hm, List.head?_drop, hvalue, ← hplace, List.getElem?_drop] at hclose
      refine ih ?_ (.inr (.of_get hend (by decide)))
      have hnext := drop_add h (drop_of_dropWhile hs (k + m))
      rw [← hnext]
      congr 1
      simp only [start, gap]
      omega

/-! ## Tokens -/

/-- The attributes of a tag and the problem in it are read where a new character starts. -/
def Token.ReadsTail (source : Bytes) : Token → Prop
  | .opening _ _ attrs problem _ => ∃ o, Fresh source o ∧
      attrs = (lexAttrs o (source.drop o)).attrs ∧ problem = (lexAttrs o (source.drop o)).problem
  | _ => True

def Found.ReadsTail (source : Bytes) : Found → Prop
  | .token t => t.ReadsTail source
  | .text _ => True

theorem readsTail_lexMark (h : source.drop o = c :: rest) (ahead : Option RawAhead) :
    (lexMark ahead o c rest).found.ReadsTail source := by
  fun_cases lexMark ahead o c rest with
  | case8 s _ _ _ _ hlt name n hactive tail =>
      have hname : source.drop (o + 1) = rest := drop_add h rfl
      have hne : name ≠ [] := by
        intro hnil
        rw [hnil] at hactive
        cases hactive
      have hfresh := fresh_behind_name hname hne
      rw [Nat.add_assoc] at hfresh
      have htail : source.drop (o + n) = s.drop n := drop_add h rfl
      refine ⟨o + n, hfresh, ?_⟩
      rw [htail]
      exact ⟨rfl, rfl⟩
  | _ => trivial

theorem readsTail_lexeme (h : source.drop o = c :: rest) (ahead : Option RawAhead) :
    (lexeme ahead o c rest).found.ReadsTail source := by
  rw [lexeme]
  split
  · exact readsTail_lexMark h ahead
  · dsimp only
    split
    · exact readsTail_lexMark h none
    · trivial

theorem readsTail_before {x : Found} (hx : x.ReadsTail source) {ts : List Token}
    (hts : ∀ t ∈ ts, t.ReadsTail source) : ∀ t ∈ x.before o ts, t.ReadsTail source := by
  cases x with
  | token t => exact List.forall_mem_cons.2 ⟨hx, hts⟩
  | text piece =>
      change ∀ t ∈ consText o piece ts, t.ReadsTail source
      unfold consText
      split
      · exact List.forall_mem_cons.2 ⟨trivial, (List.forall_mem_cons.1 hts).2⟩
      split
      · exact hts
      · exact List.forall_mem_cons.2 ⟨trivial, hts⟩

theorem readsTail_lexemes (ahead : Option RawAhead) (h : source.drop o = s) :
    ∀ t ∈ tokensOf (lexemes ahead o s), t.ReadsTail source := by
  fun_induction lexemes ahead o s with
  | case1 => exact fun _ h => absurd h List.not_mem_nil
  | case2 ahead o c rest x ih =>
      exact readsTail_before (readsTail_lexeme h ahead) (ih (by rw [← List.drop_drop, h]))

/-- A place in a source before which it has only whole characters. -/
def FaultSite (source : Bytes) (p : Pos) : Prop := ∃ o, Whole source o ∧ p = Pos.ofOffset source o

/-- Faults of a token are at such places. -/
def Token.Sited (source : Bytes) : Token → Prop
  | .text o _ | .interpolation o _ | .closing o _ _ => Whole source o
  | .opening o _ attrs problem _ => Whole source o ∧
      (∀ a ∈ attrs, a.Sited source (FaultSite source)) ∧
      ∀ p, problem = some p → p.2 ≠ .unterminated → Whole source p.1

theorem AttrPath.sited {lo hi : Nat} {attrs : List Attr} (h : AttrPath source lo hi attrs) :
    ∀ a ∈ attrs, a.Sited source (FaultSite source) := by
  induction h with
  | nil => nofun
  | @cons lo mid hi a attrs hlo hmid hstart hvalue _ ih =>
      refine List.forall_mem_cons.2 ⟨⟨⟨_, .inr hstart, rfl⟩, fun base v hv i s hi => ?_⟩, ih⟩
      have hhole : i ∈ holes (splitText 0 v) := List.mem_filterMap.2 ⟨_, hi, rfl⟩
      exact ⟨_, .inr (asciiAt_hole (hvalue base v hv).2.2 i hhole).2, rfl⟩

theorem Course.whole {ts : List Token} (h : Course source o ts)
    (hfresh : ∀ t ∈ ts.head?, isText t = true → Fresh source o) :
    ∀ t ∈ ts, Whole source t.offset := by
  induction h with
  | nil => nofun
  | text hne hbegins hnext _ ih =>
      refine List.forall_mem_cons.2 ⟨.inl (hfresh _ rfl rfl), ih fun t ht htext => ?_⟩
      rw [hnext t ht] at htext
      cases htext
  | mark ho hmark hstands hn hends _ ih =>
      exact List.forall_mem_cons.2 ⟨.inr (asciiAt_of_stands hstands hmark),
        ih fun _ _ _ => .inr hends⟩

theorem sited_lex (source : Bytes) : ∀ t ∈ lex source, t.Sited source := by
  intro t ht
  have hwhole := (course_lex source).whole (fun _ _ _ => .inl rfl) t ht
  cases t with
  | text | interpolation | closing => exact hwhole
  | opening o name attrs problem selfClosing =>
      have hlex := lex_eq source
      have htail : (Token.opening o name attrs problem selfClosing).ReadsTail source :=
        readsTail_lexemes none List.drop_zero _ (hlex ▸ ht)
      obtain ⟨o', hfresh, rfl, rfl⟩ := htail
      exact ⟨hwhole, (attrPath_lexAttrs rfl).sited,
        fun p hp hne => .inl (fresh_problem rfl hfresh p hp hne)⟩

end Template

end TagLoom

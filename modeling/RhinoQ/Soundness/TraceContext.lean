import RhinoQ.Model.Task.Trace
import RhinoQ.ToMathlib.Trim

/-! # Trace contexts read from a header and written to one

Of version 00 the parser takes exactly the headers of the W3C grammar, and rendering gives the header back. A context
that normalizes is read back from its rendering, unless it is the empty one: that renders to no header at all.
-/

namespace RhinoQ.Model.Correlation

open Text

/-- A field of the header: so many bytes, each a lower-case hexadecimal digit. -/
def Digits (length : ℕ) (s : String) : Prop :=
  s.utf8ByteSize = length ∧ ∀ c ∈ s.toList, ('0' ≤ c ∧ c ≤ '9') ∨ ('a' ≤ c ∧ c ≤ 'f')

/-- The fields of a header of version 00: an id of zeros alone names nothing. -/
structure TraceContext.WellFormed (t : TraceContext) : Prop where
  traceID : Digits 32 t.traceID ∧ ∃ c ∈ t.traceID.toList, c ≠ '0'
  spanID : Digits 16 t.spanID ∧ ∃ c ∈ t.spanID.toList, c ≠ '0'
  flags : Digits 2 t.flags

variable {raw s : String} {t u : TraceContext} {n : ℕ}

theorem Digits.ne_empty (digits : Digits (n + 1) s) : s ≠ "" := by
  rintro rfl
  cases digits.1

theorem Digits.apart (digits : Digits n s) {c : Char} (member : c ∈ s.toList) : isSpace c = false ∧ c ≠ '-' := by
  have code : (48 ≤ c.toNat ∧ c.toNat ≤ 57) ∨ (97 ≤ c.toNat ∧ c.toNat ≤ 102) := digits.2 c member
  constructor
  · simp [isSpace]
    omega
  · rintro rfl
    exact absurd code (by decide)

theorem isHexField_iff : isHexField s (n + 1) = true ↔ Digits (n + 1) s := by
  have named (digits : Digits (n + 1) s) := digits.ne_empty
  simp [isHexField, isLowerHex, Digits] at named ⊢
  tauto

theorem isAllZero_eq_false (named : s ≠ "") : isAllZero s = false ↔ ∃ c ∈ s.toList, c ≠ '0' := by
  simp [isAllZero, named]

/-- What the parser has found when it succeeds: the fields, and what a later version may add to them. -/
theorem fields_of_parse (parsed : parseTraceParent raw = .ok t) :
    t.WellFormed ∧ ∃ version more, version.utf8ByteSize = 2 ∧
      (version = "00" → (trimSpace raw).utf8ByteSize = 55) ∧
      trimSpace raw = version ++ "-" ++ t.traceID ++ "-" ++ t.spanID ++ "-" ++ t.flags ++ more := by
  unfold parseTraceParent at parsed
  dsimp only at parsed
  split at parsed
  next version traceID spanID flags rest pieces =>
    split_ifs at parsed with badVersion badLength badTrace badSpan badFlags
    cases parsed
    simp only [Bool.or_eq_true, Bool.not_eq_true', Bool.and_eq_true, beq_iff_eq, bne_iff_ne, not_or, not_and, not_not,
      Bool.not_eq_false, Bool.not_eq_true] at badVersion badLength badTrace badSpan badFlags
    have trace := isHexField_iff.mp badTrace.1
    have span := isHexField_iff.mp badSpan.1
    have formed : TraceContext.WellFormed { traceID, spanID, flags } :=
      { traceID := ⟨trace, (isAllZero_eq_false trace.ne_empty).mp badTrace.2⟩
        spanID := ⟨span, (isAllZero_eq_false span.ne_empty).mp badSpan.2⟩
        flags := isHexField_iff.mp badFlags }
    refine ⟨formed, version, ?_⟩
    have lists := congrArg (List.map String.toList) pieces
    simp only [List.map_map, List.map_cons, Function.comp_def, String.toList_ofList, List.map_id'] at lists
    have whole : ['-'].intercalate ((trimSpace raw).toList.splitOn '-') = (trimSpace raw).toList :=
      List.intercalate_splitOn '-'
    obtain ⟨more, tail⟩ : ∃ more,
        ['-'].intercalate (flags.toList :: rest.map String.toList) = flags.toList ++ more := by
      cases rest with
      | nil => exact ⟨[], by simp⟩
      | cons field rest => exact ⟨_, by rw [List.map_cons, List.intercalate_cons_cons, List.append_assoc]⟩
    refine ⟨String.ofList more, (isHexField_iff.mp badVersion.1).1, badLength, String.toList_inj.mp ?_⟩
    rw [← whole, lists, List.intercalate_cons_cons, List.intercalate_cons_cons, List.intercalate_cons_cons, tail]
    simp
  next => cases parsed

namespace TraceContext.WellFormed

variable (formed : t.WellFormed)
include formed

theorem not_zero : ¬t.zero = true := by simp [zero, formed.traceID.1.ne_empty]

theorem traceParent_eq : t.traceParent = "00-" ++ t.traceID ++ "-" ++ t.spanID ++ "-" ++ t.flags := by
  rw [traceParent, if_neg formed.not_zero, if_neg formed.flags.ne_empty]
  rfl

theorem size : t.traceParent.utf8ByteSize = 55 := by
  rw [formed.traceParent_eq]
  simp only [String.utf8ByteSize_append, formed.traceID.1.1, formed.spanID.1.1, formed.flags.1]
  rfl

theorem trim : trimSpace t.traceParent = t.traceParent := by
  have fixed (s : String) (none : s.toList.any isSpace = false) : ∀ c ∈ s.toList, isSpace c = false := by
    simpa using none
  have dense : ∀ c ∈ t.traceParent.toList, isSpace c = false := by
    rw [formed.traceParent_eq]
    simp only [String.toList_append, List.forall_mem_append]
    exact ⟨⟨⟨⟨⟨fixed _ (by decide), fun c member => (formed.traceID.1.apart member).1⟩, fixed _ (by decide)⟩,
      fun c member => (formed.spanID.1.apart member).1⟩, fixed _ (by decide)⟩,
      fun c member => (formed.flags.apart member).1⟩
  have left : t.traceParent.toList.dropWhile isSpace = t.traceParent.toList :=
    List.dropWhile_eq_self_iff.mpr fun some_left => by simp [dense _ (List.getElem_mem some_left)]
  have right : t.traceParent.toList.rdropWhile isSpace = t.traceParent.toList :=
    List.rdropWhile_eq_self_iff.mpr fun some_left => by simp [dense _ (List.getLast_mem some_left)]
  rw [trimSpace, left, right, String.ofList_toList]

theorem parse (text : trimSpace raw = t.traceParent) : parseTraceParent raw = .ok { t with traceState := "" } := by
  have joined : t.traceParent.toList =
      ['-'].intercalate ["00".toList, t.traceID.toList, t.spanID.toList, t.flags.toList] := by
    rw [formed.traceParent_eq]
    simp [List.intercalate_cons_cons]
  have fields : t.traceParent.toList.splitOn '-' = ["00".toList, t.traceID.toList, t.spanID.toList, t.flags.toList] := by
    rw [joined]
    refine List.splitOn_intercalate '-' ?_ (by simp)
    simp only [List.forall_mem_cons, List.not_mem_nil, false_imp_iff, implies_true, and_true]
    exact ⟨by decide, fun dash => (formed.traceID.1.apart dash).2 rfl, fun dash => (formed.spanID.1.apart dash).2 rfl,
      fun dash => (formed.flags.apart dash).2 rfl⟩
  unfold parseTraceParent
  simp only [text, fields, formed.size, List.map_cons, String.ofList_toList]
  simp [traceParent00Len, traceIDHexLen, spanIDHexLen, traceFlagsLen, isHexField_iff.mpr formed.traceID.1,
    isHexField_iff.mpr formed.spanID.1, isHexField_iff.mpr formed.flags,
    (isAllZero_eq_false formed.traceID.1.ne_empty).mpr formed.traceID.2,
    (isAllZero_eq_false formed.spanID.1.ne_empty).mpr formed.spanID.2, show isHexField "00" 2 = true from rfl]

end TraceContext.WellFormed

theorem traceParent_of_parse (parsed : parseTraceParent raw = .ok t) {rest : String}
    (begins : trimSpace raw = "00" ++ rest) : t.traceParent = trimSpace raw := by
  obtain ⟨formed, version, more, two, length, spelled⟩ := fields_of_parse parsed
  have zeros : version = "00" := by
    have bytes := congrArg String.toByteArray (spelled.symm.trans begins)
    simp only [String.append_assoc, String.toByteArray_append] at bytes
    exact String.toByteArray_inj.mp (ByteArray.append_inj_left bytes two)
  subst zeros
  rw [show "00" ++ "-" = "00-" from rfl, ← formed.traceParent_eq] at spelled
  -- the length that version 00 fixes leaves no room for a further field
  have size := length rfl
  rw [spelled, String.utf8ByteSize_append, formed.size] at size
  have none : more = "" := String.utf8ByteSize_eq_zero_iff.mp (by omega)
  rw [spelled, none, String.append_empty]

theorem withTraceState_cases {text : String} (stated : t.withTraceState text = .ok u) :
    ∃ state, u = { t with traceState := state } ∧
      ∀ v : TraceContext, v.withTraceState state = .ok { v with traceState := state } := by
  have again : trimSpace (trimSpace text) = trimSpace text := by
    rw [trimSpace, trimSpace, String.toList_ofList, trim_trim fun _ => id]
  unfold TraceContext.withTraceState at stated
  dsimp only at stated
  split_ifs at stated with none long
  all_goals cases stated
  · exact ⟨"", rfl, fun v => rfl⟩
  · refine ⟨trimSpace text, rfl, fun v => ?_⟩
    rw [TraceContext.withTraceState, again, if_neg none, if_neg long]

/-- Only the empty context is lost by rendering: no header stands for it. -/
theorem trace_context_laws :
    (∀ raw rest, trimSpace raw = "00" ++ rest →
      ((∃ t, parseTraceParent raw = .ok t) ↔
        ∃ t : TraceContext, t.WellFormed ∧ trimSpace raw = "00-" ++ t.traceID ++ "-" ++ t.spanID ++ "-" ++ t.flags) ∧
      ∀ t, parseTraceParent raw = .ok t → t.traceParent = trimSpace raw) ∧
    ∀ t u : TraceContext, t.normalize = .ok u → u.normalize = .ok u ∧
      (t.zero = false → parseTraceParent u.traceParent = .ok { u with traceState := "" }) := by
  refine ⟨fun raw rest begins => ⟨⟨?_, ?_⟩, fun t parsed => traceParent_of_parse parsed begins⟩, fun t u normal => ?_⟩
  · rintro ⟨t, parsed⟩
    have formed := (fields_of_parse parsed).1
    exact ⟨t, formed, (traceParent_of_parse parsed begins).symm.trans formed.traceParent_eq⟩
  · rintro ⟨t, formed, spelled⟩
    exact ⟨_, formed.parse (spelled.trans formed.traceParent_eq.symm)⟩
  unfold TraceContext.normalize at normal
  split_ifs at normal with empty
  · cases normal
    exact ⟨rfl, fun some => absurd empty (by simp [some])⟩
  split at normal
  · cases normal
  next parsed read =>
  obtain ⟨state, rfl, settled⟩ := withTraceState_cases normal
  have read := (fields_of_parse read).1
  have formed : TraceContext.WellFormed { parsed with traceState := state } := ⟨read.1, read.2, read.3⟩
  have again := formed.parse formed.trim
  refine ⟨?_, fun _ => again⟩
  rw [TraceContext.normalize, if_neg formed.not_zero, again]
  exact settled _

/-- A context that was given without flags gets them, and is read back. -/
theorem given_trace_read_back : ∃ u : TraceContext,
    TraceContext.normalize { traceID := "4bf92f3577b34da6a3ce929d0e0e4736", spanID := "00f067aa0ba902b7" } = .ok u ∧
      u.flags = "00" ∧ u.normalize = .ok u ∧ parseTraceParent u.traceParent = .ok { u with traceState := "" } := by
  let given : TraceContext := { traceID := "4bf92f3577b34da6a3ce929d0e0e4736", spanID := "00f067aa0ba902b7" }
  have normal : given.normalize = .ok { given with flags := "00" } := by decide
  obtain ⟨settled, again⟩ := trace_context_laws.2 given _ normal
  exact ⟨_, normal, rfl, settled, again rfl⟩

/-- No trace at all normalizes to itself, and renders to a header that does not parse. -/
theorem no_trace_not_read_back :
    TraceContext.normalize {} = .ok {} ∧ parseTraceParent (TraceContext.traceParent {}) = .error errTraceParentMalformed :=
  ⟨rfl, by decide⟩

end RhinoQ.Model.Correlation

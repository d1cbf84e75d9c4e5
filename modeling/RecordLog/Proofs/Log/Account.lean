import Mathlib.Algebra.GroupWithZero.Nat
import RecordLog.Proofs.Log.Layout

/-! # Every byte of a log is accounted for

A scan moves a cursor from record to record, and the statistics add up what they come upon.  Both
see the same records.  Counted from the start of the log, the records take spans one behind the
other.  Every byte lies within one of them, or in a gap that the statistics look through for
garbage.

* `placed`, `Inside`: the spans of records counted from the start, and the indices within them.
* `gaps`: the stretches before, between and behind the records.
* `countP_inside`, `countP_outside`: how many indices lie within records, and outside of them.
* `Log.statistics_account`: the statistics and the scans of a log, by its records and its bytes.
-/

namespace RecordLog

open Format

def Span.Covers (s : Span) (i : Nat) : Prop :=
  s.offset ≤ i ∧ i < s.reach

instance (s : Span) (i : Nat) : Decidable (s.Covers i) :=
  inferInstanceAs (Decidable (_ ∧ _))

/-- The spans of records found one behind the other, counted from `start` bytes before the first
search. -/
def placed (start : Nat) : List Located → List Span
  | [] => []
  | found :: more =>
    { offset := start + found.span.offset, length := found.span.length } ::
      placed (start + found.span.reach) more

/-- One of the spans covers the index. -/
def Inside (spans : List Span) (i : Nat) : Prop :=
  ∃ s ∈ spans, s.Covers i

instance (spans : List Span) (i : Nat) : Decidable (Inside spans i) :=
  inferInstanceAs (Decidable (∃ s ∈ _, _))

/-- The stretches of a buffer, from an index to another, that lie before, between and behind records
found one behind the other. -/
def gaps (start stop : Nat) : List Located → List (Nat × Nat)
  | [] => [(start, stop)]
  | found :: more =>
    (start, start + found.span.offset) :: gaps (start + found.span.reach) stop more

/-- The bytes in the gaps. -/
def outside (bytes : Bytes) : List Located → Bytes
  | [] => bytes
  | found :: more => bytes.take found.span.offset ++ outside (bytes.drop found.span.reach) more

/-! ## Spans one behind the other -/

theorem reach_placed (start : Nat) (found : Located) :
    Span.reach { offset := start + found.span.offset, length := found.span.length } =
      start + found.span.reach :=
  Nat.add_assoc _ _ _

theorem le_offset_of_mem_placed {found : List Located} {start : Nat} {s : Span}
    (h : s ∈ placed start found) : start ≤ s.offset := by
  induction found generalizing start with
  | nil => cases h
  | cons first more ih =>
    rcases List.mem_cons.mp h with rfl | hmore
    · exact Nat.le_add_right _ _
    · have := ih hmore
      omega

theorem pairwise_placed (found : List Located) (start : Nat) :
    (placed start found).Pairwise fun s t => s.reach ≤ t.offset := by
  induction found generalizing start with
  | nil => exact .nil
  | cons first more ih =>
    refine List.pairwise_cons.mpr ⟨?_, ih _⟩
    intro t ht
    rw [reach_placed]
    exact le_offset_of_mem_placed ht

theorem not_inside_placed {found : List Located} {start i : Nat} (h : i < start) :
    ¬ Inside (placed start found) i := by
  rintro ⟨s, hs, hcovers⟩
  have hle := le_offset_of_mem_placed hs
  have hfrom : s.offset ≤ i := hcovers.1
  omega

section

variable {first : Located} {more : List Located} {start i : Nat}

theorem inside_placed_cons : Inside (placed start (first :: more)) i ↔
    (start + first.span.offset ≤ i ∧ i < start + first.span.reach) ∨
      Inside (placed (start + first.span.reach) more) i := by
  rw [Inside, placed, List.exists_mem_cons_iff, Span.Covers, reach_placed]
  rfl

theorem not_inside_placed_before (h : i < start + first.span.offset) :
    ¬ Inside (placed start (first :: more)) i := by
  rw [inside_placed_cons]
  rintro (⟨hfrom, -⟩ | hmore)
  · omega
  · have hreach : first.span.offset ≤ first.span.reach := Nat.le_add_right _ _
    exact not_inside_placed (by omega) hmore

theorem inside_placed_behind (h : start + first.span.reach ≤ i) :
    Inside (placed start (first :: more)) i ↔
      Inside (placed (start + first.span.reach) more) i := by
  rw [inside_placed_cons]
  refine or_iff_right ?_
  omega

end

/-! ## Marking bytes -/

/-- Bytes from the index `start` on, each with whether one of the spans covers its index. -/
def marks (spans : List Span) (start : Nat) (bytes : Bytes) : List (UInt8 × Bool) :=
  (bytes.zipIdx start).map fun x => (x.1, decide (Inside spans x.2))

section

variable {spans : List Span} {start : Nat} {bytes : Bytes}

theorem marks_append (more : Bytes) :
    marks spans start (bytes ++ more) =
      marks spans start bytes ++ marks spans (start + bytes.length) more := by
  rw [marks, List.zipIdx_append, List.map_append]
  rfl

theorem marks_eq_map {inside : Bool} (h : ∀ i, start ≤ i → i < start + bytes.length →
    decide (Inside spans i) = inside) : marks spans start bytes = bytes.map (·, inside) := by
  have hfst : bytes.map (·, inside) = (bytes.zipIdx start).map fun x => (x.1, inside) := by
    conv_lhs => rw [← List.zipIdx_map_fst start bytes, List.map_map]
    rfl
  rw [marks, hfst]
  refine List.map_congr_left fun x hx => ?_
  rw [h x.2 (List.le_snd_of_mem_zipIdx hx) (List.snd_lt_add_of_mem_zipIdx hx)]

theorem marks_congr {spans' : List Span}
    (h : ∀ i, start ≤ i → (Inside spans i ↔ Inside spans' i)) :
    marks spans start bytes = marks spans' start bytes := by
  refine List.map_congr_left fun x hx => ?_
  simp only [h x.2 (List.le_snd_of_mem_zipIdx hx)]

end

theorem marks_of_find?_eq_none {bytes : Bytes} (h : find? bytes = none) (start : Nat) :
    marks (placed start (records bytes)) start bytes = bytes.map (·, false) := by
  refine marks_eq_map fun i _ _ => ?_
  rw [records_of_find?_eq_none h]
  rfl

theorem marks_of_find?_eq_some {bytes : Bytes} {found : Located} (h : find? bytes = some found)
    (start : Nat) : marks (placed start (records bytes)) start bytes =
      (bytes.take found.span.offset).map (·, false) ++
        ((bytes.drop found.span.offset).take found.span.length).map (·, true) ++
        marks (placed (start + found.span.reach) (records (bytes.drop found.span.reach)))
          (start + found.span.reach) (bytes.drop found.span.reach) := by
  have hreach := reach_le_of_find? h
  rw [Span.reach] at hreach
  have hgap : (bytes.take found.span.offset).length = found.span.offset := by
    rw [List.length_take]
    omega
  have hbody : ((bytes.drop found.span.offset).take found.span.length).length =
      found.span.length := by
    rw [List.length_take, List.length_drop]
    omega
  have hsplit : bytes = bytes.take found.span.offset ++
      (bytes.drop found.span.offset).take found.span.length ++ bytes.drop found.span.reach := by
    rw [Span.reach, ← List.drop_drop, List.append_assoc, List.take_append_drop,
      List.take_append_drop]
  rw [records_of_find?_eq_some h]
  generalize records (bytes.drop found.span.reach) = more
  conv_lhs => rw [hsplit]
  rw [marks_append, marks_append, List.length_append, hgap, hbody]
  -- before the record nothing covers an index, in it the record does, and behind it only the others
  refine congr (congrArg _ (congr (congrArg _ ?_) ?_)) ?_
  · refine marks_eq_map fun i _ hi => decide_eq_false (not_inside_placed_before ?_)
    rwa [hgap] at hi
  · refine marks_eq_map fun i hfrom hi => decide_eq_true ?_
    rw [hbody, Nat.add_assoc] at hi
    exact inside_placed_cons.mpr (.inl ⟨hfrom, hi⟩)
  · exact marks_congr fun i hi => inside_placed_behind hi

/-! ## Counting bytes -/

theorem countP_inside (bytes : Bytes) (start : Nat) :
    (bytes.zipIdx start).countP (fun x => Inside (placed start (records bytes)) x.2) =
      ((records bytes).map fun found => found.span.length).sum := by
  show (bytes.zipIdx start).countP (Prod.snd ∘ fun x => (x.1, decide (Inside _ x.2))) = _
  rw [← List.countP_map, ← marks]
  induction bytes using records_induction generalizing start with
  | none bytes h =>
    rw [marks_of_find?_eq_none h, records_of_find?_eq_none h]
    simp
  | some bytes found h ih =>
    have hreach := reach_le_of_find? h
    rw [marks_of_find?_eq_some h, records_of_find?_eq_some h, List.countP_append,
      List.countP_append, List.map_cons, List.sum_cons, ih, List.countP_map, List.countP_map]
    have hgap : (bytes.take found.span.offset).countP (Prod.snd ∘ (·, false)) = 0 := by
      simp [Function.comp_def]
    have hbody : ((bytes.drop found.span.offset).take found.span.length).countP
        (Prod.snd ∘ (·, true)) = found.span.length := by
      rw [Span.reach] at hreach
      simp only [Function.comp_def, List.countP_true, List.length_take, List.length_drop]
      omega
    rw [hgap, hbody, Nat.zero_add]

theorem countP_outside (p : UInt8 → Bool) (bytes : Bytes) (start : Nat) :
    (bytes.zipIdx start).countP
        (fun x => !decide (Inside (placed start (records bytes)) x.2) && p x.1) =
      (outside bytes (records bytes)).countP p := by
  show (bytes.zipIdx start).countP ((fun x => !x.2 && p x.1) ∘
    fun x => (x.1, decide (Inside _ x.2))) = _
  rw [← List.countP_map, ← marks]
  induction bytes using records_induction generalizing start with
  | none bytes h =>
    rw [marks_of_find?_eq_none h, records_of_find?_eq_none h, List.countP_map]
    rfl
  | some bytes found h ih =>
    rw [marks_of_find?_eq_some h, records_of_find?_eq_some h, outside, List.countP_append,
      List.countP_append, List.countP_append, ih, List.countP_map, List.countP_map]
    have hbody : ((bytes.drop found.span.offset).take found.span.length).countP
        ((fun x => !x.2 && p x.1) ∘ (·, true)) = 0 := by
      simp [Function.comp_def]
    rw [hbody]
    rfl

theorem length_eq_add_outside (bytes : Bytes) : bytes.length =
    ((records bytes).map fun found => found.span.length).sum +
      (outside bytes (records bytes)).length := by
  have hsplit := List.length_eq_countP_add_countP
    (fun x : UInt8 × Nat => decide (Inside (placed 0 (records bytes)) x.2)) (l := bytes.zipIdx)
  have houtside := countP_outside (fun _ => true) bytes 0
  simp only [Bool.and_true, List.countP_true] at houtside
  rw [List.length_zipIdx, countP_inside] at hsplit
  rw [hsplit, ← houtside]
  simp

/-- **The statistics of a buffer**, by its records and by what lies outside of them. -/
theorem statistics_eq (bytes : Bytes) : Statistics.ofBuffer bytes =
    { records := (records bytes).length
      totalBytes := bytes.length
      recordBytes := ((records bytes).map fun found => found.span.length).sum
      garbageBytes := garbage (outside bytes (records bytes)) } := by
  induction bytes using records_induction with
  | none bytes h =>
    rw [Statistics.ofBuffer_of_find?_eq_none h, records_of_find?_eq_none h]
    rfl
  | some bytes found h ih =>
    have hreach := reach_le_of_find? h
    rw [Statistics.ofBuffer_of_find?_eq_some h, ih, records_of_find?_eq_some h, Statistics.cons,
      outside, garbage_append, List.map_cons, List.sum_cons, Statistics.mk.injEq]
    refine ⟨rfl, ?_, Nat.add_comm _ _, Nat.add_comm _ _⟩
    rw [Span.reach] at hreach ⊢
    simp only [List.length_drop, List.length_take]
    omega

/-! ## Gaps -/

theorem gaps_bounds (bytes : Bytes) (start : Nat) :
    ∀ gap ∈ gaps start (start + bytes.length) (records bytes),
      start ≤ gap.1 ∧ gap.1 ≤ gap.2 ∧ gap.2 ≤ start + bytes.length := by
  induction bytes using records_induction generalizing start with
  | none bytes h =>
    rw [records_of_find?_eq_none h]
    intro gap hgap
    obtain rfl := List.mem_singleton.mp hgap
    dsimp only
    omega
  | some bytes found h ih =>
    have hreach := reach_le_of_find? h
    have hstop : start + found.span.reach + (bytes.drop found.span.reach).length =
        start + bytes.length := by
      rw [List.length_drop]
      omega
    have hmore := ih (start + found.span.reach)
    rw [hstop] at hmore
    rw [Span.reach] at hreach hmore
    rw [records_of_find?_eq_some h, gaps, Span.reach]
    intro gap hgap
    rcases List.mem_cons.mp hgap with rfl | hgap
    · dsimp only
      omega
    · have := hmore gap hgap
      omega

theorem flatMap_gaps (buffer : Bytes) (found : List Located) (start : Nat) :
    (gaps start buffer.length found).flatMap (fun gap => buffer.extract gap.1 gap.2) =
      outside (buffer.drop start) found := by
  induction found generalizing start with
  | nil =>
    rw [gaps, List.flatMap_singleton, List.extract_eq_take_drop, outside]
    exact List.take_of_length_le (Nat.le_of_eq List.length_drop)
  | cons first more ih =>
    rw [gaps, List.flatMap_cons, ih, outside, List.extract_eq_take_drop, List.drop_drop,
      Nat.add_sub_cancel_left]

theorem garbage_outside (buffer : Bytes) : garbage (outside buffer (records buffer)) =
    ((gaps 0 buffer.length (records buffer)).map fun gap =>
      garbage (buffer.extract gap.1 gap.2)).sum := by
  have hgaps := flatMap_gaps buffer (records buffer) 0
  rw [List.drop_zero] at hgaps
  rw [← hgaps, garbage, List.countP_flatMap]
  rfl

/-! ## Statistics and scans -/

/-- **Statistics and scans of a log agree, and account for every byte.**  Both see the records of
the bytes that the log yields, and a scan keeps those that pass.  Counted from the start, the
records lie one behind the other.  The bytes of records are those whose index lies within one.  The
other bytes are garbage or blank, and the garbage is that of the gaps, none of which reaches past
the end. -/
theorem Log.statistics_account {σ : Type} {log : Log (StateM σ)} {s : σ} {buffer : Bytes}
    (h : log.contents.run.run s = (.ok buffer, s)) (keep : Record → Bool) :
    ∃ (found : List Located) (stats : Statistics),
      log.allRecords.run.run s = (.ok (found.map Located.record), s) ∧
      (log.scan keep).run.run s =
        (.ok { records := (found.map Located.record).filter keep, scanned := found.length }, s) ∧
      log.statistics.run.run s = (.ok stats, s) ∧
      stats.records = found.length ∧
      stats.totalBytes = buffer.length ∧
      stats.recordBytes = (found.map fun f => f.span.length).sum ∧
      (placed 0 found).Pairwise (fun s t => s.reach ≤ t.offset) ∧
      stats.recordBytes = buffer.zipIdx.countP (fun x => Inside (placed 0 found) x.2) ∧
      stats.garbageBytes =
        buffer.zipIdx.countP (fun x => ¬ Inside (placed 0 found) x.2 ∧ ¬ isBlank x.1) ∧
      stats.totalBytes = stats.recordBytes + stats.garbageBytes +
        buffer.zipIdx.countP (fun x => ¬ Inside (placed 0 found) x.2 ∧ isBlank x.1) ∧
      stats.garbageBytes = ((gaps 0 buffer.length found).map fun gap =>
        garbage (buffer.extract gap.1 gap.2)).sum ∧
      ∀ gap ∈ gaps 0 buffer.length found, gap.1 ≤ gap.2 ∧ gap.2 ≤ buffer.length := by
  have hgarbage : garbage (outside buffer (records buffer)) = buffer.zipIdx.countP
      (fun x => ¬ Inside (placed 0 (records buffer)) x.2 ∧ ¬ isBlank x.1) := by
    rw [garbage, ← countP_outside _ buffer 0]
    simp
  have hblank : (outside buffer (records buffer)).countP isBlank = buffer.zipIdx.countP
      (fun x => ¬ Inside (placed 0 (records buffer)) x.2 ∧ isBlank x.1) := by
    rw [← countP_outside _ buffer 0]
    simp
  have houtside : (outside buffer (records buffer)).length =
      garbage (outside buffer (records buffer)) +
        (outside buffer (records buffer)).countP isBlank := by
    rw [List.length_eq_countP_add_countP isBlank, Nat.add_comm, garbage]
    simp
  refine ⟨records buffer, _, Log.run_allRecords h, ?_, Log.run_statistics h, ?_⟩
  · rw [Log.run_scan h, ScanReport.ofBuffer, List.length_map]
  rw [statistics_eq]
  refine ⟨rfl, rfl, rfl, pairwise_placed _ 0, (countP_inside buffer 0).symm, hgarbage, ?_,
    garbage_outside buffer, fun gap hgap => ?_⟩
  · dsimp only
    rw [← hblank, Nat.add_assoc, ← houtside]
    exact length_eq_add_outside buffer
  · have hbounds := gaps_bounds buffer 0
    rw [Nat.zero_add] at hbounds
    exact (hbounds gap hgap).2

/-- A stray byte, an empty record, a line end, an object with a reserved name, a blank, and an
object that was cut off: the record and the two blanks are no garbage. -/
theorem Log.statistics_account_torn :
    ∃ (buffer : Bytes) (found : List Located) (stats : Statistics),
    buffer = Utf8.encode "x\x7b\x7d\n\x7b\"_\":\"\"\x7d \x7b\"" ∧
    Log.memory.contents.run.run buffer = (.ok buffer, buffer) ∧
    Log.memory.allRecords.run.run buffer = (.ok (found.map Located.record), buffer) ∧
    Log.memory.statistics.run.run buffer = (.ok stats, buffer) ∧
    stats = { records := 1, totalBytes := 15, recordBytes := 2, garbageBytes := 11 } ∧
    stats.totalBytes = stats.recordBytes + stats.garbageBytes +
      buffer.zipIdx.countP (fun x => ¬ Inside (placed 0 found) x.2 ∧ isBlank x.1) := by
  let buffer : Bytes := Utf8.encode "x\x7b\x7d\n\x7b\"_\":\"\"\x7d \x7b\""
  have hcontents : Log.memory.contents.run.run buffer = (.ok buffer, buffer) := rfl
  obtain ⟨found, stats, hfound, -, hstats, -, -, -, -, -, -, htotal, -⟩ :=
    Log.statistics_account hcontents fun _ => true
  have hcounted : Statistics.ofBuffer buffer =
      { records := 1, totalBytes := 15, recordBytes := 2, garbageBytes := 11 } := by
    decide +kernel
  have hsame := hstats.symm.trans (Log.run_statistics hcontents)
  rw [hcounted] at hsame
  exact ⟨buffer, found, stats, rfl, hcontents, hfound, hstats,
    Except.ok.inj (Prod.mk.inj hsame).1, htotal⟩

end RecordLog

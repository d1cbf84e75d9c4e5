import RecordLog.Proofs.Format.Extension
import RecordLog.Proofs.Log.Lines
import RecordLog.Proofs.Text.Ascii

/-! # Logs that were cut off

A log is cut off at any byte.  The records whose closing brace stands before the cut are found, and
the reading of the one that the cut goes through runs out of bytes.  The search then goes on behind
its opening brace, within its names and values, and what it finds there it takes for records.

* `wholeIn`, `tornIn`: the records before a cut, and the bytes of the one that it goes through.
* `read_of_append_isObject`: the reading of an object that was cut off runs out of bytes.
* `map_fields_records_take`: the records of a log that was cut off.
* `Record.Unbraced`: no name or value holds an opening brace, so that nothing is found there.
* `allRecords_take`: all of this, of a log to which records were written.
-/

namespace RecordLog

open Format

/-- How many of the records of a log of lines end, by their closing brace, within its first `k`
bytes.  The line end behind the brace does not count. -/
def wholeIn (rs : List Record) (k : Nat) : Nat :=
  (List.range rs.length).countP fun i => (linesOf (rs.take (i + 1))).length ≤ k + 1

/-- The bytes, within the first `k`, of the record that a cut goes through. -/
def tornIn (rs : List Record) (k : Nat) : Bytes :=
  ((linesOf rs).take k).drop (linesOf (rs.take (wholeIn rs k))).length

/-! ## A record that was cut off -/

theorem Format.read_of_append_isObject {torn rest : Bytes} {ms : List RawMember}
    (h : IsObject (torn ++ rest) ms) (hrest : rest ≠ []) : Format.read torn = .truncated := by
  by_contra htruncated
  -- a reading that ended would have ended with the whole object
  have hwhole := h.read_append []
  rw [List.append_nil, read_append htruncated] at hwhole
  obtain ⟨written, more, e, hlength, -⟩ := read_eq_object_iff.mp hwhole
  have hpos := List.length_pos_of_ne_nil hrest
  have hle := congrArg List.length e
  rw [List.length_append] at hle hlength
  omega

theorem find?_of_toObject_eq {r : Record} {torn rest : Bytes} (e : r.toObject = torn ++ rest)
    (hrest : rest ≠ []) : find? torn = (find? torn.tail).map (Located.shift 1) := by
  cases torn with
  | nil => rfl
  | cons b torn =>
    have hobject : IsObject r.toObject _ := isObject_object r.toList
    rw [e] at hobject
    refine find?_cons_of_refuses (.inr ?_)
    rw [inspect, read_of_append_isObject hobject hrest]

theorem records_of_toObject_eq {r : Record} {torn rest : Bytes} (e : r.toObject = torn ++ rest)
    (hrest : rest ≠ []) : records torn = shiftFirst 1 (records torn.tail) := by
  refine records_of_find?_eq_map (find?_of_toObject_eq e hrest) fun k => ?_
  rw [List.drop_tail, Nat.add_comm]

/-! ## Before and behind a cut -/

theorem length_linesOf_take_succ (r : Record) (rs : List Record) (i : Nat) :
    (linesOf ((r :: rs).take (i + 1))).length =
      r.toObject.length + 1 + (linesOf (rs.take i)).length := by
  rw [List.take_succ_cons, linesOf_cons, List.length_append, List.length_cons]
  omega

theorem two_le_length_linesOf_take {rs : List Record} {i : Nat} (h : i < rs.length) :
    2 ≤ (linesOf (rs.take (i + 1))).length := by
  cases rs with
  | nil => exact absurd h (Nat.not_lt_zero i)
  | cons r rs =>
    have hpos : 0 < r.toObject.length := Nat.succ_pos _
    rw [length_linesOf_take_succ]
    omega

theorem wholeIn_cons (r : Record) (rs : List Record) (k : Nat) :
    wholeIn (r :: rs) k = if r.toObject.length ≤ k then
      wholeIn rs (k - (r.toObject.length + 1)) + 1 else 0 := by
  have hfirst : (linesOf ((r :: rs).take (0 + 1))).length = r.toObject.length + 1 :=
    length_linesOf_take_succ r rs 0
  rw [wholeIn, List.length_cons, List.range_succ_eq_map, List.countP_cons, List.countP_map, hfirst,
    wholeIn]
  by_cases h : r.toObject.length ≤ k
  · rw [if_pos h, if_pos (decide_eq_true (Nat.succ_le_succ h))]
    congr 1
    refine List.countP_congr fun i hi => ?_
    -- the lines behind the first take at least two bytes, so they end behind `k` if it ends at `k`
    have htwo := two_le_length_linesOf_take (List.mem_range.mp hi)
    rw [Function.comp, decide_eq_true_iff, decide_eq_true_iff, length_linesOf_take_succ]
    omega
  · rw [if_neg h, if_neg (mt of_decide_eq_true (by omega)), List.countP_eq_zero.mpr]
    intro i _
    rw [Function.comp, decide_eq_true_iff, length_linesOf_take_succ]
    omega

theorem tornIn_nil (k : Nat) : tornIn [] k = [] := by
  simp [tornIn, linesOf]

theorem tornIn_cons (r : Record) (rs : List Record) (k : Nat) :
    tornIn (r :: rs) k = if r.toObject.length ≤ k then
      tornIn rs (k - (r.toObject.length + 1)) else r.toObject.take k := by
  rw [tornIn, wholeIn_cons]
  by_cases h : r.toObject.length ≤ k
  · have hdrop : (linesOf (r :: rs)).drop (r.toObject.length + 1) = linesOf rs := by
      rw [linesOf_cons, ← List.drop_drop, List.drop_left]
      rfl
    rw [if_pos h, if_pos h, length_linesOf_take_succ, tornIn, ← List.drop_drop, List.drop_take,
      hdrop]
  · rw [if_neg h, if_neg h, linesOf_cons, List.take_append_of_le_length (by omega)]
    rfl

/-- **The records of a log that was cut off** are the whole ones and what is found behind the
opening brace of the one that the cut goes through. -/
theorem map_fields_records_take {rs : List Record} (h : ∀ r ∈ rs, r.Valid) (k : Nat) :
    (records ((linesOf rs).take k)).map Located.fields =
      (rs.take (wholeIn rs k)).map Record.fields ++
        (records (tornIn rs k).tail).map Located.fields := by
  induction rs generalizing k with
  | nil =>
    rw [tornIn_nil, linesOf, List.flatMap_nil, List.take_nil, List.take_nil]
    rfl
  | cons r rs ih =>
    obtain ⟨hr, hrs⟩ := List.forall_mem_cons.mp h
    rw [wholeIn_cons, tornIn_cons]
    by_cases hk : r.toObject.length ≤ k
    · rw [if_pos hk, if_pos hk, linesOf_cons, List.take_append, List.take_of_length_le hk,
        records_toObject_append hr, List.map_cons, List.take_succ_cons, List.map_cons,
        List.cons_append, ← ih hrs]
      congr 1
      -- the cut goes through the line end itself, or stands behind it
      rcases Nat.eq_zero_or_pos (k - r.toObject.length) with hzero | hpos
      · rw [hzero, show k - (r.toObject.length + 1) = 0 by omega]
        rfl
      · rw [List.take_cons hpos, records_newline_cons, map_fields_shiftFirst, Nat.sub_sub]
    · have e : r.toObject = r.toObject.take k ++ r.toObject.drop k :=
        (List.take_append_drop k r.toObject).symm
      have hrest : r.toObject.drop k ≠ [] := by
        rw [ne_eq, List.drop_eq_nil_iff]
        exact hk
      rw [if_neg hk, if_neg hk, linesOf_cons, List.take_append_of_le_length (by omega),
        records_of_toObject_eq e hrest, map_fields_shiftFirst]
      rfl

/-! ## Texts without opening braces -/

/-- No name and no value holds an opening brace. -/
def Record.Unbraced (r : Record) : Prop :=
  ∀ field ∈ r.toList, '{' ∉ field.1.toList ∧ '{' ∉ field.2.toList

instance (r : Record) : Decidable r.Unbraced :=
  inferInstanceAs (Decidable (∀ _ ∈ _, _))

theorem not_mem_quoted {text : String} (h : '{' ∉ text.toList) : openBrace ∉ quoted text := by
  have hbyte : openBrace ∉ Utf8.encode text :=
    fun hmem => h (Utf8.mem_of_mem_encode (c := '{') (by decide) hmem)
  have hescape : openBrace ∉ escape (Utf8.encode text) := by
    intro hmem
    obtain ⟨b, hb, hmem⟩ := List.mem_flatMap.mp hmem
    -- what an escape adds is a backslash
    have hadded : openBrace = b := by
      rw [escapeByte] at hmem
      split at hmem <;> simpa [show openBrace ≠ backslash by decide] using hmem
    exact hbyte (hadded ▸ hb)
  rw [quoted_eq, List.mem_append, List.mem_cons]
  rintro ((hquote | hmem) | hquote)
  · exact absurd hquote (by decide)
  · exact hescape hmem
  · exact absurd hquote (by decide)

theorem not_mem_member {field : String × String}
    (h : '{' ∉ field.1.toList ∧ '{' ∉ field.2.toList) : openBrace ∉ member field := by
  rw [member, List.mem_append, List.mem_cons]
  rintro (hname | hcolon | hvalue)
  · exact not_mem_quoted h.1 hname
  · exact absurd hcolon (by decide)
  · exact not_mem_quoted h.2 hvalue

theorem Record.Unbraced.not_mem_tail {r : Record} (h : r.Unbraced) :
    openBrace ∉ r.toObject.tail := by
  have hmembers : openBrace ∉ members r.toList := by
    rw [Unbraced] at h
    cases hfields : r.toList with
    | nil => exact List.not_mem_nil
    | cons field fields =>
      rw [hfields, List.forall_mem_cons] at h
      rw [members, List.mem_append, List.mem_flatMap]
      rintro (hfirst | ⟨f, hf, hmem⟩)
      · exact not_mem_member h.1 hfirst
      · rcases List.mem_cons.mp hmem with hcomma | hmem
        · exact absurd hcomma (by decide)
        · exact not_mem_member (h.2 f hf) hmem
  show openBrace ∉ members r.toList ++ [closeBrace]
  rw [List.mem_append]
  rintro (hmem | hclose)
  · exact hmembers hmem
  · exact absurd hclose (by decide)

theorem tornIn_prefix (rs : List Record) (k : Nat) :
    tornIn rs k = [] ∨ ∃ r, rs[wholeIn rs k]? = some r ∧ tornIn rs k <+: r.toObject := by
  induction rs generalizing k with
  | nil =>
    exact .inl (tornIn_nil k)
  | cons r rs ih =>
    rw [wholeIn_cons, tornIn_cons]
    by_cases hk : r.toObject.length ≤ k
    · rw [if_pos hk, if_pos hk, List.getElem?_cons_succ]
      exact ih (k - (r.toObject.length + 1))
    · rw [if_neg hk, if_neg hk]
      exact .inr ⟨r, rfl, List.take_prefix k r.toObject⟩

theorem Record.Unbraced.not_mem_tail_torn {r : Record} (h : r.Unbraced) {torn : Bytes}
    (htorn : torn <+: r.toObject) : openBrace ∉ torn.tail := by
  obtain ⟨rest, e⟩ := htorn
  intro hmem
  refine h.not_mem_tail ?_
  cases torn with
  | nil => exact absurd hmem List.not_mem_nil
  | cons b torn =>
    rw [← e]
    exact List.mem_append_left rest hmem

/-! ## Logs that were cut off -/

/-- **A log that was cut off keeps the records whose closing brace stands before the cut**, in
order, and behind them come only those that a search finds behind the opening brace of the record
that the cut goes through.  There are none if no name or value of that record holds an opening
brace.  A written record that was cut off is no record itself: a search finds in it what stands
behind its opening brace, and nothing if its names and values hold no such brace. -/
theorem Log.allRecords_take {rs : List Record} (h : ∀ r ∈ rs, r.Valid) :
    ∃ log, (rs.forM Log.memory.append).run.run [] = (.ok (), log) ∧
      (∀ k, ∃ found, Log.memory.allRecords.run.run (log.take k) = (.ok found, log.take k) ∧
        found.map Record.fields = (rs.take (wholeIn rs k)).map Record.fields ++
          (records (tornIn rs k).tail).map Located.fields ∧
        ((∀ r ∈ rs[wholeIn rs k]?, r.Unbraced) →
          found.map Record.fields = (rs.take (wholeIn rs k)).map Record.fields)) ∧
      ∀ r ∈ rs, ∀ torn rest, r.encode = .ok (torn ++ rest) → rest ≠ [] →
        decodeAt torn 0 = (decodeAt torn 1).map (Located.shift 1) ∧
        (r.Unbraced → decodeAt torn 0 = none) := by
  refine ⟨linesOf rs, Log.run_forM_append_memory h [], fun k => ?_, fun r _ torn rest e hrest => ?_⟩
  · refine ⟨_, Log.run_allRecords_memory _, ?_⟩
    have hfields : ((records ((linesOf rs).take k)).map Located.record).map Record.fields =
        (records ((linesOf rs).take k)).map Located.fields := List.map_map
    rw [hfields, map_fields_records_take h]
    refine ⟨rfl, fun hunbraced => ?_⟩
    have htail : openBrace ∉ (tornIn rs k).tail := by
      rcases tornIn_prefix rs k with hnil | ⟨r, hr, hprefix⟩
      · rw [hnil]
        exact List.not_mem_nil
      · exact (hunbraced r hr).not_mem_tail_torn hprefix
    rw [records_of_find?_eq_none (find?_of_not_mem htail), List.map_nil, List.append_nil]
  · obtain ⟨-, hobject⟩ := Record.encode_eq_ok_iff.mp e
    have hfind : decodeAt torn 0 = (decodeAt torn 1).map (Located.shift 1) := by
      rw [decodeAt, decodeAt, List.drop_zero, List.drop_one]
      exact find?_of_toObject_eq hobject.symm hrest
    refine ⟨hfind, fun hunbraced => ?_⟩
    have htail := hunbraced.not_mem_tail_torn ⟨rest, hobject⟩
    rw [hfind, decodeAt, List.drop_one, find?_of_not_mem htail, Option.map_none]

/-- A cut through the second of two records, behind a quote in its value. -/
theorem Log.allRecords_take_second :
    (∀ r ∈ [Record.ofList [("a", "1")], Record.ofList [("a", "\"2")]], r.Valid) ∧
    ∃ log found, (List.forM [Record.ofList [("a", "1")], Record.ofList [("a", "\"2")]]
        Log.memory.append).run.run [] = (.ok (), log) ∧
      Log.memory.allRecords.run.run (log.take 18) = (.ok found, log.take 18) ∧
      found.map Record.fields = [(Record.ofList [("a", "1")]).fields] := by
  have h : ∀ r ∈ [Record.ofList [("a", "1")], Record.ofList [("a", "\"2")]], r.Valid := by
    decide +kernel
  obtain ⟨log, hlog, htake, -⟩ := Log.allRecords_take h
  obtain ⟨found, hfound, -, hclean⟩ := htake 18
  exact ⟨h, log, found, hlog, hfound, (hclean (by decide +kernel)).trans (by decide +kernel)⟩

/-- A record with braces in its value, cut off behind them: nothing of it is kept whole, and an
empty record is found between the braces. -/
theorem Log.allRecords_take_braces : ∃ log found,
    (List.forM [Record.ofList [("a", "\x7b\x7d")]] Log.memory.append).run.run [] = (.ok (), log) ∧
    Log.memory.allRecords.run.run (log.take 8) = (.ok found, log.take 8) ∧
    found.map Record.fields ≠ ([Record.ofList [("a", "\x7b\x7d")]].take
      (wholeIn [Record.ofList [("a", "\x7b\x7d")]] 8)).map Record.fields ∧
    decodeAt (log.take 8) 0 ≠ none := by
  have h : ∀ r ∈ [Record.ofList [("a", "\x7b\x7d")]], r.Valid := by decide +kernel
  refine ⟨_, _, Log.run_forM_append_memory h [], Log.run_allRecords_memory _, ?_, ?_⟩
  · decide +kernel
  · decide +kernel

end RecordLog

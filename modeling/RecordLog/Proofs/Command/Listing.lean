import RecordLog.Proofs.Command.Files

/-! # Listing a list

What is listed of a log is a log.  It holds the records that were listed and nothing else, and when
it is listed in turn the same comes out.

* `run_list_of_read`: listing a log that is there.
* `run_list_listed`: what was listed is listed again as it is.
* `normalForm_listed`: the normal form of a log, and listing.
-/

namespace RecordLog.Command

open Format

variable {fs : FileSystem} {words : List String} {invocation : Invocation} {buffer : Bytes}

theorem run_list_of_read (h : Invocation.ofWords words = .ok invocation) {user? : Option String}
    {json : Bool} (hlist : invocation.request = .list user? json)
    (hread : fs.read invocation.config.logPath = .ok buffer) :
    (run (m := StateM FileSystem) words).run fs =
      ({ exit := 0, stdout := listing user? json ((records buffer).map Located.record) }, fs) := by
  obtain ⟨place, hfile⟩ := FileSystem.read_eq_ok_iff.mp hread
  have hopen := FileSystem.opens_of_openFile hfile
  refine run_of_shows h hopen hread ?_
  rw [hlist]
  rfl

/-- **What was listed is listed again as it is.** -/
theorem run_list_listed (h : Invocation.ofWords words = .ok invocation)
    (hlist : invocation.request = .list none false) (hrecords : records buffer ≠ [])
    (hread : fs.read invocation.config.logPath =
      .ok (Utf8.encode (listing none false ((records buffer).map Located.record)))) :
    (run (m := StateM FileSystem) words).run fs =
      ({ exit := 0, stdout := listing none false ((records buffer).map Located.record) },
        fs) := by
  have hne : (records buffer).map Located.record ≠ [] := mt List.map_eq_nil_iff.mp hrecords
  rw [encode_listing_none_false hne] at hread
  rw [run_list_of_read h hlist hread, listing_records_linesOf fun r => valid_of_mem_map_record]

/-- **Writing the records of a log again is a normal form.**  Whatever a log holds, the records
found in it may be written.  Written as lines and nothing else they are a log that has the same
records and no garbage, and of which the same lines are written.  So listing a log never fails, and
what it shows of any records is such a log, which listed in turn shows the same. -/
theorem normalForm_listed (buffer : Bytes) :
    (∀ found ∈ records buffer, found.record.validate = .ok () ∧
      ∃ object, found.record.encode = .ok object) ∧
    ∃ normal, normalForm buffer = .ok normal ∧
      (records normal).map Located.fields = (records buffer).map Located.fields ∧
      (Statistics.ofBuffer normal).records = (Statistics.ofBuffer buffer).records ∧
      (Statistics.ofBuffer normal).garbageBytes = 0 ∧
      normalForm normal = .ok normal ∧
      ∀ (words : List String) (invocation : Invocation) (fs : FileSystem),
        Invocation.ofWords words = .ok invocation → invocation.request = .list none false →
        fs.read invocation.config.logPath = .ok buffer →
        ∃ outcome, (run (m := StateM FileSystem) words).run fs = (outcome, fs) ∧
          outcome.exit = 0 ∧
          (records buffer ≠ [] → Utf8.encode outcome.stdout = normal ∧
            ∀ (words' : List String) (invocation' : Invocation) (fs' : FileSystem),
              Invocation.ofWords words' = .ok invocation' →
              invocation'.request = .list none false →
              fs'.read invocation'.config.logPath = .ok (Utf8.encode outcome.stdout) →
              (run (m := StateM FileSystem) words').run fs' = (outcome, fs')) := by
  have hvalid : ∀ r ∈ (records buffer).map Located.record, r.Valid :=
    fun r => valid_of_mem_map_record
  have hfields : (records (linesOf ((records buffer).map Located.record))).map Located.fields =
      (records buffer).map Located.fields := by
    rw [map_fields_records_linesOf hvalid, List.map_map]
    rfl
  refine ⟨?_, _, normalForm_eq buffer, hfields, ?_, garbageBytes_linesOf hvalid,
    normalForm_linesOf hvalid, ?_⟩
  · intro found hfound
    have hrecord := Located.valid_of_mem_records hfound
    exact ⟨Record.validate_eq_ok_iff.mpr hrecord, _, Record.encode_eq_ok_iff.mpr ⟨hrecord, rfl⟩⟩
  · have hlength := congrArg List.length hfields
    rw [List.length_map, List.length_map] at hlength
    rw [statistics_eq, statistics_eq]
    exact hlength
  · intro words invocation fs hwords hlist hread
    refine ⟨_, run_list_of_read hwords hlist hread, rfl, fun hrecords => ⟨?_, ?_⟩⟩
    · have hne : (records buffer).map Located.record ≠ [] := mt List.map_eq_nil_iff.mp hrecords
      rw [encode_listing_none_false hne]
    · intro words' invocation' fs' hwords' hlist' hread'
      exact run_list_listed hwords' hlist' hrecords hread'

/-- A stray byte, a record written with a blank, an object with a reserved name, and one cut off. -/
theorem normalForm_listed_torn : ∃ (buffer normal : Bytes) (words : List String)
    (invocation : Invocation) (fs fs' : FileSystem) (outcome : Outcome),
    buffer = Utf8.encode "x\x7b\"a\": \"b\"\x7d\x7b\"_\":\"\"\x7d\x7b\"" ∧
    normal = Utf8.encode "\x7b\"a\":\"b\"\x7d\n" ∧
    normalForm buffer = .ok normal ∧ normalForm normal = .ok normal ∧
    Invocation.ofWords words = .ok invocation ∧ invocation.request = .list none false ∧
    fs.read invocation.config.logPath = .ok buffer ∧
    fs'.read invocation.config.logPath = .ok normal ∧
    (run (m := StateM FileSystem) words).run fs = (outcome, fs) ∧
    (run (m := StateM FileSystem) words).run fs' = (outcome, fs') ∧
    outcome.exit = 0 ∧ Utf8.encode outcome.stdout = normal := by
  let buffer := Utf8.encode "x\x7b\"a\": \"b\"\x7d\x7b\"_\":\"\"\x7d\x7b\""
  let lines := Utf8.encode "\x7b\"a\":\"b\"\x7d\n"
  let words := ["-l", "log", "list"]
  let invocation : Invocation :=
    { config := { logPath := ⟨"log"⟩, sync := .deferred }, request := .list none false }
  let fs := (∅ : FileSystem).withFile ⟨"log"⟩ buffer
  let fs' := (∅ : FileSystem).withFile ⟨"log"⟩ lines
  have hwords : Invocation.ofWords words = .ok invocation := by decide +kernel
  have hread : fs.read ⟨"log"⟩ = .ok buffer := by decide +kernel
  have hread' : fs'.read ⟨"log"⟩ = .ok lines := by decide +kernel
  have hrecords : records buffer ≠ [] := by
    intro h
    have hlength : (records buffer).length = 1 := by decide +kernel
    rw [h] at hlength
    cases hlength
  obtain ⟨-, normal, hnormal, -, -, -, hagain, hlisted⟩ := normalForm_listed buffer
  obtain rfl : lines = normal := by
    have hlines : normalForm buffer = .ok lines := by decide +kernel
    exact Except.ok.inj (hlines.symm.trans hnormal)
  obtain ⟨outcome, hrun, hexit, hmore⟩ := hlisted words invocation fs hwords rfl hread
  obtain ⟨hstdout, hrelisted⟩ := hmore hrecords
  have hrun' := hrelisted words invocation fs' hwords rfl (by rw [hstdout]; exact hread')
  exact ⟨buffer, lines, words, invocation, fs, fs', outcome, rfl, rfl, hnormal, hagain, hwords,
    rfl, hread, hread', hrun, hrun', hexit, hstdout⟩

end RecordLog.Command

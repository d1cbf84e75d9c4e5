import RecordLog.Proofs.Command.Files
import RecordLog.Proofs.Format.Quotation
import RecordLog.Proofs.Search.Attempts

/-! # Texts stay texts

Records are written and read byte by byte, and what a command shows goes through a text.  Nothing is
lost on the way: a written record is a text, so that it is shown byte for byte, and of a log that is
a text every name and value that a reading closes is one, so that no byte of it is replaced.

* `encode_listing`: records are listed as the bytes that they are written as.
* `run_post_of_exit_eq_zero`, `run_list_of_exit_eq_zero`: what a command that ended well has shown.
* `source_of_attempt`: what is closed in a log that is a text, wherever the search began.
* `texts_stay_texts`: all of this.
-/

namespace RecordLog.Command

open Format

/-! ## What is shown -/

/-- **Records are listed as the bytes that they are written as.** -/
theorem encode_listing {rs : List Record} (h : ∀ r ∈ rs, r.Valid) {user? : Option String}
    (hkept : rs.filter (keep user?) ≠ []) :
    ∃ objects, (rs.filter (keep user?)).mapM Record.encode = .ok objects ∧
      Utf8.encode (listing user? false rs) = objects.flatMap (· ++ [newline]) := by
  refine ⟨_, mapM_encode fun r hr => h r (List.mem_of_mem_filter hr), ?_⟩
  rw [listing_of_filter_ne_nil hkept, if_neg Bool.false_ne_true,
    (isText_linesOf _).encode_decodeLossy, linesOf, List.flatMap_map]

section

variable {words : List String} {invocation : Invocation} {fs fs' : FileSystem} {outcome : Outcome}

theorem exists_opens_of_exit_eq_zero (h : Invocation.ofWords words = .ok invocation)
    (hrun : (run (m := StateM FileSystem) words).run fs = (outcome, fs'))
    (hexit : outcome.exit = 0) : ∃ fs₁, fs.Opens invocation.config.logPath fs₁ := by
  cases hopen : (Disk.openForAppending (m := StateM FileSystem)
      invocation.config.logPath).run.run fs with
  | mk result fs₁ =>
    cases result with
    | ok u => exact ⟨fs₁, hopen⟩
    | error e =>
      have hfailed := hrun.symm.trans (run_of_open_error h hopen)
      rw [(Prod.mk.inj hfailed).1] at hexit
      cases hexit

/-- **A command that posted has shown the bytes of the record.** -/
theorem run_post_of_exit_eq_zero (h : Invocation.ofWords words = .ok invocation)
    {user msg : String} {fields : List String}
    (hpost : invocation.request = .post user msg fields)
    (hrun : (run (m := StateM FileSystem) words).run fs = (outcome, fs'))
    (hexit : outcome.exit = 0) :
    ∃ r object, postRecord user msg fields = .ok r ∧ r.encode = .ok object ∧
      Utf8.encode outcome.stdout =
        Utf8.encode "Message Posted:\n" ++ (object ++ [newline]) := by
  obtain ⟨fs₁, hopen⟩ := exists_opens_of_exit_eq_zero h hrun hexit
  obtain ⟨place, old, hfile, -⟩ := FileSystem.openFile_of_opens hopen
  cases hposted : invocation.request.posted? with
  | some r =>
    have hdone := hrun.symm.trans (run_of_posts h hopen hfile hposted)
    rw [hpost] at hposted
    obtain ⟨hpostable, rfl⟩ := Request.posted?_post_eq_some_iff.mp hposted
    refine ⟨_, _, hpostable.postRecord, hpostable.encode, ?_⟩
    rw [(Prod.mk.inj hdone).1, encode_receipt]
  | none =>
    have hshown : invocation.request.shown? old = none := by
      rw [hpost]
      rfl
    obtain ⟨e, hfailed⟩ := run_of_refuses h hopen hshown hposted
    rw [(Prod.mk.inj (hrun.symm.trans hfailed)).1] at hexit
    cases hexit

/-- **A command that listed has shown the bytes of the records.** -/
theorem run_list_of_exit_eq_zero (h : Invocation.ofWords words = .ok invocation)
    {user? : Option String} (hlist : invocation.request = .list user? false)
    (hrun : (run (m := StateM FileSystem) words).run fs = (outcome, fs'))
    (hexit : outcome.exit = 0) :
    ∃ content, fs'.read invocation.config.logPath = .ok content ∧
      (((records content).map Located.record).filter (keep user?) ≠ [] → ∃ objects,
        (((records content).map Located.record).filter (keep user?)).mapM Record.encode =
          .ok objects ∧
        Utf8.encode outcome.stdout = objects.flatMap (· ++ [newline])) := by
  obtain ⟨fs₁, hopen⟩ := exists_opens_of_exit_eq_zero h hrun hexit
  obtain ⟨place, content, hfile, -⟩ := FileSystem.openFile_of_opens hopen
  have hread := FileSystem.read_of_openFile hfile
  have hshown : invocation.request.shown? content =
      some (listing user? false ((records content).map Located.record)) := by
    rw [hlist]
    rfl
  obtain ⟨rfl, rfl⟩ := Prod.mk.inj (hrun.symm.trans (run_of_shows h hopen hread hshown))
  exact ⟨content, hread, encode_listing fun r => valid_of_mem_map_record⟩

end

/-! ## What is read -/

/-- **What a reading closes in a log that is a text is a text**, wherever the search began: that
which stands between the two quotes, without the backslashes. -/
theorem source_of_attempt {buffer : Bytes} (htext : IsText buffer) {start : Nat} {t : Attempt}
    (ht : t ∈ attempts (buffer.drop start)) {taken rest bytes : Bytes} {state : State}
    (hbytes : t.bytes = openBrace :: (taken ++ quote :: rest))
    (hafter : State.opening.after taken = some state) (hcloses : state.Closes bytes) :
    ∃ (before : Bytes) (source : String), taken = before ++ quote :: Utf8.encode source ∧
      Spells (Utf8.encode source) bytes ∧
      bytes = Utf8.encode (String.ofList (unescaped source.toList)) := by
  have hstands := (attempts_standIn _ t ht).1
  rw [List.drop_drop, hbytes] at hstands
  have hsplit := List.take_append_drop (start + t.offset) buffer
  rw [hstands] at hsplit
  rw [← hsplit] at htext
  exact exists_source_of_closes (htext.of_append_cons (by decide)).2 hafter hcloses

/-- **The names and values of a record found in a log that is a text are texts**: those that stand
between the quotes, without the backslashes. -/
theorem sources_of_found {buffer : Bytes} (htext : IsText buffer) {start : Nat} {found : Located}
    (hfound : decodeAt buffer start = some found) :
    ∃ ms, ObjectAt buffer (start + found.span.offset) (start + found.span.reach - 1) ms ∧
      found.fields = fieldsOf ms ∧ ∀ m ∈ ms, ∃ name value : String,
        Spells (Utf8.encode name) m.1 ∧ Spells (Utf8.encode value) m.2 ∧
        fieldOf m = (String.ofList (unescaped name.toList),
          String.ofList (unescaped value.toList)) := by
  obtain ⟨gap, written, rest, ms, hdrop, hobject, -, rfl⟩ := exists_of_find?_eq_some hfound
  refine ⟨ms, objectAt_iff.mpr ⟨written, rest, ?_, hobject, ?_⟩, rfl, fun m hm => ?_⟩
  · rw [← List.drop_drop, hdrop, List.drop_left]
  · have htwo := hobject.two_le_length
    simp only [Span.reach]
    omega
  · rw [← List.take_append_drop start buffer, hdrop, ← List.append_assoc] at htext
    obtain ⟨name, value, hname, hvalue, hnameMeant, hvalueMeant⟩ :=
      hobject.exists_sources htext m hm
    refine ⟨name, value, hname, hvalue, ?_⟩
    rw [fieldOf, hnameMeant, hvalueMeant, Utf8.decodeLossy_encode, Utf8.decodeLossy_encode]

/-- **Texts stay texts.**  A record that may be written is written as a text, and so a command shows
of the records that it posts and lists exactly the bytes that they are written as.  In a log that is
a text, wherever a search begins, the bytes of each name and value that a reading closes are those of
a text, and none is replaced: they are what stands between the quotes, without the backslash before
each escaped character.  So are the names and values of the record that is found. -/
theorem texts_stay_texts :
    (∀ r : Record, r.Valid → ∃ written, r.encode = .ok written ∧ IsText written) ∧
    (∀ (words : List String) (invocation : Invocation) (user msg : String) (fields : List String)
      (fs fs' : FileSystem) (outcome : Outcome),
      Invocation.ofWords words = .ok invocation → invocation.request = .post user msg fields →
      (run (m := StateM FileSystem) words).run fs = (outcome, fs') → outcome.exit = 0 →
      ∃ r object, postRecord user msg fields = .ok r ∧ r.encode = .ok object ∧
        Utf8.encode outcome.stdout =
          Utf8.encode "Message Posted:\n" ++ (object ++ [newline])) ∧
    (∀ (words : List String) (invocation : Invocation) (user? : Option String)
      (fs fs' : FileSystem) (outcome : Outcome),
      Invocation.ofWords words = .ok invocation → invocation.request = .list user? false →
      (run (m := StateM FileSystem) words).run fs = (outcome, fs') → outcome.exit = 0 →
      ∃ content, fs'.read invocation.config.logPath = .ok content ∧
        (((records content).map Located.record).filter (keep user?) ≠ [] → ∃ objects,
          (((records content).map Located.record).filter (keep user?)).mapM Record.encode =
            .ok objects ∧
          Utf8.encode outcome.stdout = objects.flatMap (· ++ [newline]))) ∧
    ∀ buffer : Bytes, IsText buffer → ∀ start : Nat,
      (∀ t ∈ attempts (buffer.drop start), ∀ (taken rest bytes : Bytes) (state : State),
        t.bytes = openBrace :: (taken ++ quote :: rest) →
        State.opening.after taken = some state → state.Closes bytes →
        ∃ (before : Bytes) (source : String), taken = before ++ quote :: Utf8.encode source ∧
          Spells (Utf8.encode source) bytes ∧ IsText bytes ∧
          Utf8.decodeLossy bytes = String.ofList (unescaped source.toList)) ∧
      ∀ found, decodeAt buffer start = some found →
        ∃ ms, ObjectAt buffer (start + found.span.offset) (start + found.span.reach - 1) ms ∧
          found.fields = fieldsOf ms ∧ ∀ m ∈ ms, ∃ name value : String,
            Spells (Utf8.encode name) m.1 ∧ Spells (Utf8.encode value) m.2 ∧
            fieldOf m = (String.ofList (unescaped name.toList),
              String.ofList (unescaped value.toList)) := by
  refine ⟨fun r hr => ?_, fun words invocation user msg fields fs fs' outcome h hpost hrun hexit =>
    run_post_of_exit_eq_zero h hpost hrun hexit, fun words invocation user? fs fs' outcome h hlist
    hrun hexit => run_list_of_exit_eq_zero h hlist hrun hexit, fun buffer htext start => ⟨?_, ?_⟩⟩
  · exact ⟨_, Record.encode_eq_ok_iff.mpr ⟨hr, rfl⟩, isText_object r.toList⟩
  · intro t ht taken rest bytes state hbytes hafter hcloses
    obtain ⟨before, source, htaken, hspells, rfl⟩ :=
      source_of_attempt htext ht hbytes hafter hcloses
    exact ⟨before, source, htaken, hspells, ⟨_, rfl⟩, Utf8.decodeLossy_encode _⟩
  · exact fun found hfound => sources_of_found htext hfound

/-- A log that begins with a character of two bytes, and a record with a backslash before another:
the search begins between the two bytes, and the reading closes the value. -/
theorem texts_stay_texts_accent : ∃ (buffer taken : Bytes) (before : Bytes) (source : String),
    buffer = Utf8.encode "é\x7b\"k\":\"\\é\"\x7d" ∧ IsText buffer ∧
    taken = Utf8.encode "\"k\":\"\\é" ∧
    (∃ t ∈ attempts (buffer.drop 1), t.bytes = openBrace :: (taken ++ quote :: [closeBrace])) ∧
    State.opening.after taken = some (.value [] [107] [0xA9, 0xC3]) ∧
    taken = before ++ quote :: Utf8.encode source ∧ Spells (Utf8.encode source) [0xC3, 0xA9] ∧
    Utf8.decodeLossy [0xC3, 0xA9] = String.ofList (unescaped source.toList) := by
  let buffer : Bytes := Utf8.encode "é\x7b\"k\":\"\\é\"\x7d"
  let taken : Bytes := Utf8.encode "\"k\":\"\\é"
  have htext : IsText buffer := ⟨_, rfl⟩
  have hattempt : ∃ t ∈ attempts (buffer.drop 1),
      t.bytes = openBrace :: (taken ++ quote :: [closeBrace]) := by decide +kernel
  have hafter : State.opening.after taken = some (.value [] [107] [0xA9, 0xC3]) := by
    decide +kernel
  have hcloses : (State.value [] [107] [0xA9, 0xC3]).Closes [0xC3, 0xA9] := .inr ⟨[], [107], rfl⟩
  obtain ⟨t, ht, hbytes⟩ := hattempt
  obtain ⟨before, source, htaken, hspells, -, hdecoded⟩ :=
    (texts_stay_texts.2.2.2 buffer htext 1).1 t ht taken [closeBrace] [0xC3, 0xA9] _ hbytes hafter
      hcloses
  exact ⟨buffer, taken, before, source, rfl, htext, rfl, ⟨t, ht, hbytes⟩, hafter, htaken, hspells,
    hdecoded⟩

end RecordLog.Command

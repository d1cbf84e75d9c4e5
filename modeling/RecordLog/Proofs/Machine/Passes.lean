import RecordLog.Proofs.Cursor.Calls
import RecordLog.Proofs.Machine.Search

/-! # Passes through a buffer that count in words

A cursor and the statistics go from record to record by a search and then by arithmetic on what it
found: the cursor adds how far the record reaches, the statistics cut out the gap before the record
and add up bytes.  In words all of this can fail as a search can.  It does not, since whatever is
added up was passed over: the cursor stands at an index of the buffer, or where it was begun, and
each sum is at most the index that the pass has come to.

* `Yields`: a call of a cursor.
* `Tally`, `Tallies`: the counts of a pass, and its runs.
* `Yields.unique`, `Tallies.unique`: a call comes to one end, and so does a pass.
* `exists_yields`, `exists_tallies`: both come to an end, which is that of `Cursor.next` and of
  `Statistics.ofBuffer`.
* `words_suffice`: searches, calls and passes in a buffer whose length is a word.
-/

namespace RecordLog.Machine

open Format

variable {buffer : Bytes}

/-! ## Where a found record lies -/

theorem reach_le_of_located {position : Word} {record : Found}
    (h : decodeAt buffer position.toNat = some record.located) :
    position.toNat + (record.offset.toNat + record.length.toNat) ≤ buffer.length := by
  have hreach := reach_le_of_find? h
  have htwo := two_le_length_of_find? h
  rw [List.length_drop, Span.reach] at hreach
  simp only [Found.located] at hreach htwo
  omega

theorem braces_of_located {position : Word} {record : Found}
    (h : decodeAt buffer position.toNat = some record.located) :
    2 ≤ record.length.toNat ∧
      buffer[position.toNat + record.offset.toNat]? = some openBrace ∧
      buffer[position.toNat + record.offset.toNat + record.length.toNat - 1]? =
        some closeBrace := by
  have htwo : 2 ≤ record.length.toNat := two_le_length_of_find? h
  obtain ⟨hopen, hclose⟩ := braces_of_find? h
  rw [List.getElem?_drop] at hopen hclose
  have hlast : position.toNat + record.offset.toNat + record.length.toNat - 1 =
      position.toNat + (record.offset.toNat + record.length.toNat - 1) := by omega
  rw [hlast]
  exact ⟨htwo, hopen, hclose⟩

theorem exists_reach (hbuffer : buffer.length < 2 ^ 64) {position : Word} {record : Found}
    (h : decodeAt buffer position.toNat = some record.located) :
    ∃ reach next, record.reach = .ok reach ∧ plus position reach = .ok next ∧
      reach.toNat = record.located.span.reach ∧
      next.toNat = position.toNat + record.located.span.reach := by
  have hle := reach_le_of_located h
  obtain ⟨reach, hreach, hreachNat⟩ :=
    exists_plus (a := record.offset) (b := record.length) (by omega)
  obtain ⟨next, hnext, hnextNat⟩ := exists_plus (a := position) (b := reach) (by omega)
  exact ⟨reach, next, hreach, hnext, hreachNat, by rw [hnextNat, hreachNat]; rfl⟩

/-! ## Calls of a cursor -/

/-- A call of a cursor that stands at an index: the record it yields, and where the cursor is
then. -/
inductive Yields (buffer : Bytes) (position : Word) : Option Found → Word → Prop
  | atEnd : buffer.length ≤ position.toNat → Yields buffer position none position
  | record {tried : List Word} {record : Found} {reach next : Word} :
      position.toNat < buffer.length → Searches buffer position position tried (some record) →
      record.reach = .ok reach → plus position reach = .ok next →
      Yields buffer position (some record) next
  | nothing {tried : List Word} {stop : Word} :
      position.toNat < buffer.length → Searches buffer position position tried none →
      ofCount buffer.length = .ok stop → Yields buffer position none stop

theorem Yields.unique {position next next' : Word} {found found' : Option Found}
    (h : Yields buffer position found next) (h' : Yields buffer position found' next') :
    found = found' ∧ next = next' := by
  cases h with
  | atEnd hle =>
    cases h' with
    | atEnd _ => exact ⟨rfl, rfl⟩
    | record hlt _ _ _ | nothing hlt _ _ => exact absurd hlt (Nat.not_lt.mpr hle)
  | record hlt hsearch hreach hnext =>
    cases h' with
    | atEnd hle => exact absurd hlt (Nat.not_lt.mpr hle)
    | record _ hsearch' hreach' hnext' =>
      obtain ⟨-, hsame⟩ := hsearch.unique hsearch'
      cases hsame
      rw [hreach] at hreach'
      cases hreach'
      rw [hnext] at hnext'
      cases hnext'
      exact ⟨rfl, rfl⟩
    | nothing _ hsearch' _ => cases (hsearch.unique hsearch').2
  | nothing hlt hsearch hstop =>
    cases h' with
    | atEnd hle => exact absurd hlt (Nat.not_lt.mpr hle)
    | record _ hsearch' _ _ => cases (hsearch.unique hsearch').2
    | nothing _ _ hstop' =>
      rw [hstop] at hstop'
      cases hstop'
      exact ⟨rfl, rfl⟩

/-- **Every call comes to an end**, which is that of the cursor. -/
theorem exists_yields (hbuffer : buffer.length < 2 ^ 64) (position : Word) :
    ∃ found next, Yields buffer position found next ∧
      (Cursor.seek buffer position.toNat).next =
        (found.map Found.located, Cursor.seek buffer next.toNat) := by
  rcases Nat.lt_or_ge position.toNat buffer.length with hlt | hge
  · obtain ⟨tried, found, hrun⟩ := exists_searches hbuffer (Nat.le_refl position.toNat)
    have hfound := hrun.found_eq_decodeAt
    cases found with
    | none =>
      have hnone : find? (Cursor.seek buffer position.toNat).rest = none := hfound.symm
      obtain ⟨stop, hstop, hnat⟩ := exists_ofCount hbuffer
      refine ⟨none, stop, .nothing hlt hrun.run hstop, ?_⟩
      rw [Cursor.next_of_find?_eq_none hnone, Cursor.seek, Cursor.seek, hnat, List.drop_length,
        List.length_drop, Nat.add_sub_cancel' (Nat.le_of_lt hlt)]
      rfl
    | some record =>
      have hsome : find? (Cursor.seek buffer position.toNat).rest = some record.located :=
        hfound.symm
      obtain ⟨reach, next, hreach, hnext, -, hnat⟩ := exists_reach hbuffer hfound.symm
      refine ⟨some record, next, .record hlt hrun.run hreach hnext, ?_⟩
      rw [Cursor.next_of_find?_eq_some hsome, Cursor.seek, Cursor.seek, hnat, List.drop_drop]
      rfl
  · have hrest : (Cursor.seek buffer position.toNat).rest = [] := List.drop_eq_nil_of_le hge
    have hnone : find? (Cursor.seek buffer position.toNat).rest = none := by rw [hrest, find?_nil]
    refine ⟨none, position, .atEnd hge, ?_⟩
    rw [Cursor.next_of_find?_eq_none hnone, hrest, Cursor.seek, List.drop_eq_nil_of_le hge]
    rfl

/-! ## Statistics -/

/-- What a pass has counted. -/
structure Tally where
  records : Word := 0
  recordBytes : Word := 0
  garbageBytes : Word := 0
  deriving DecidableEq, Repr

/-- Counts a record and the gap between an index and it.  Yields the index behind the record. -/
def Tally.add (buffer : Bytes) (cursor : Word) (t : Tally) (record : Found) :
    Except Fault (Word × Tally) := do
  let gap ← slice buffer cursor (← plus cursor record.offset)
  let garbageBytes ← plus t.garbageBytes (← ofCount (garbage gap))
  let recordBytes ← plus t.recordBytes record.length
  let records ← plus t.records 1
  let next ← plus cursor (← record.reach)
  return (next, { records, recordBytes, garbageBytes })

/-- Counts what is left of the buffer from an index on. -/
def Tally.finish (buffer : Bytes) (cursor : Word) (t : Tally) : Except Fault Tally := do
  let gap ← slice buffer cursor (← ofCount buffer.length)
  let garbageBytes ← plus t.garbageBytes (← ofCount (garbage gap))
  return { t with garbageBytes }

/-- A run of a pass that has come to an index with these counts: the counts it ends with. -/
inductive Tallies (buffer : Bytes) : Word → Tally → Tally → Prop
  | record {cursor next : Word} {tried : List Word} {record : Found} {t t' total : Tally} :
      Searches buffer cursor cursor tried (some record) →
      t.add buffer cursor record = .ok (next, t') → Tallies buffer next t' total →
      Tallies buffer cursor t total
  | rest {cursor : Word} {tried : List Word} {t total : Tally} :
      Searches buffer cursor cursor tried none → t.finish buffer cursor = .ok total →
      Tallies buffer cursor t total

theorem Tallies.unique {cursor : Word} {t total total' : Tally} (h : Tallies buffer cursor t total)
    (h' : Tallies buffer cursor t total') : total = total' := by
  induction h with
  | record hsearch hadd _ ih =>
    cases h' with
    | record hsearch' hadd' hmore =>
      cases (hsearch.unique hsearch').2
      rw [hadd] at hadd'
      cases hadd'
      exact ih hmore
    | rest hsearch' _ => cases (hsearch.unique hsearch').2
  | rest hsearch hfinish =>
    cases h' with
    | record hsearch' _ _ => cases (hsearch.unique hsearch').2
    | rest _ hfinish' =>
      rw [hfinish] at hfinish'
      cases hfinish'
      rfl

/-- No more was counted than was passed over. -/
structure Tally.Within (t : Tally) (index : Nat) : Prop where
  bytes : t.recordBytes.toNat + t.garbageBytes.toNat ≤ index
  records : t.records.toNat ≤ index

/-- The counts of the second tally are those of the first and these. -/
structure Tally.Adds (t : Tally) (s : Statistics) (total : Tally) : Prop where
  records : total.records.toNat = t.records.toNat + s.records
  recordBytes : total.recordBytes.toNat = t.recordBytes.toNat + s.recordBytes
  garbageBytes : total.garbageBytes.toNat = t.garbageBytes.toNat + s.garbageBytes

theorem exists_garbage (hbuffer : buffer.length < 2 ^ 64) (first last : Word)
    (h : first.toNat ≤ last.toNat) (hlast : last.toNat ≤ buffer.length) :
    ∃ gap count, slice buffer first last = .ok gap ∧ ofCount (garbage gap) = .ok count ∧
      gap = (buffer.drop first.toNat).take (last.toNat - first.toNat) ∧
      count.toNat = garbage gap ∧ count.toNat ≤ last.toNat - first.toNat := by
  have hslice := slice_eq_ok buffer h hlast
  rw [List.extract_eq_take_drop] at hslice
  have hle : garbage ((buffer.drop first.toNat).take (last.toNat - first.toNat)) ≤
      last.toNat - first.toNat :=
    Nat.le_trans List.countP_le_length (List.length_take_le _ _)
  obtain ⟨count, hcount, hnat⟩ := exists_ofCount (Nat.lt_of_le_of_lt hle (by omega))
  exact ⟨_, count, hslice, hcount, rfl, hnat, by omega⟩

section

variable {cursor : Word} {t : Tally}

/-- **Counting one record meets no fault**, and no more is counted then than was passed over. -/
theorem exists_add (hbuffer : buffer.length < 2 ^ 64) {record : Found}
    (hfound : decodeAt buffer cursor.toNat = some record.located) (ht : t.Within cursor.toNat) :
    ∃ next t', t.add buffer cursor record = .ok (next, t') ∧
      next.toNat = cursor.toNat + record.located.span.reach ∧ t'.Within next.toNat ∧
      ∀ s total, t'.Adds s total →
        t.Adds (.cons ((buffer.drop cursor.toNat).take record.located.span.offset)
          record.located.span.length s) total := by
  have hle := reach_le_of_located hfound
  have htwo : 2 ≤ record.length.toNat := two_le_length_of_find? hfound
  have hspan : record.located.span.reach = record.offset.toNat + record.length.toNat := rfl
  obtain ⟨hbytes, hrecords⟩ := ht
  obtain ⟨stop, hstop, hstopNat⟩ := exists_plus (a := cursor) (b := record.offset) (by omega)
  obtain ⟨gap, count, hslice, hcount, hgap, hcountNat, hcountLe⟩ :=
    exists_garbage hbuffer cursor stop (by omega) (by omega)
  obtain ⟨garbageBytes, hgarbage, hgarbageNat⟩ :=
    exists_plus (a := t.garbageBytes) (b := count) (by omega)
  obtain ⟨recordBytes, hrecord, hrecordNat⟩ :=
    exists_plus (a := t.recordBytes) (b := record.length) (by omega)
  obtain ⟨records, hone, honeNat⟩ := exists_plus_one (a := t.records) (by omega)
  obtain ⟨reach, next, hreach, hnext, -, hnextNat⟩ := exists_reach hbuffer hfound
  have hadd : t.add buffer cursor record = .ok (next, ⟨records, recordBytes, garbageBytes⟩) := by
    simp only [Tally.add, hstop, hslice, hcount, hgarbage, hrecord, hone, hreach, hnext, ok_bind,
      pure_eq_ok]
  refine ⟨next, _, hadd, hnextNat, ⟨?_, ?_⟩, fun s total htotal => ⟨?_, ?_, ?_⟩⟩
  · dsimp only
    omega
  · dsimp only
    omega
  · rw [htotal.records, honeNat, Statistics.cons]
    dsimp only
    omega
  · rw [htotal.recordBytes, hrecordNat, Statistics.cons]
    dsimp only [Found.located]
    omega
  · rw [hstopNat, Nat.add_sub_cancel_left] at hgap
    rw [htotal.garbageBytes, hgarbageNat, hcountNat, hgap, Statistics.cons]
    dsimp only [Found.located]
    omega

/-- **Counting the rest meets no fault.** -/
theorem exists_finish (hbuffer : buffer.length < 2 ^ 64) (hcursor : cursor.toNat ≤ buffer.length)
    (ht : t.Within cursor.toNat) (hnone : decodeAt buffer cursor.toNat = none) :
    ∃ total, t.finish buffer cursor = .ok total ∧
      t.Adds (Statistics.ofBuffer (buffer.drop cursor.toNat)) total := by
  obtain ⟨hbytes, -⟩ := ht
  obtain ⟨stop, hstop, hstopNat⟩ := exists_ofCount hbuffer
  obtain ⟨gap, count, hslice, hcount, hgap, hcountNat, hcountLe⟩ :=
    exists_garbage hbuffer cursor stop (by omega) (by omega)
  obtain ⟨garbageBytes, hgarbage, hgarbageNat⟩ :=
    exists_plus (a := t.garbageBytes) (b := count) (by omega)
  have hrest : gap = buffer.drop cursor.toNat := by
    rw [hgap, hstopNat, List.take_of_length_le (Nat.le_of_eq List.length_drop)]
  have hfinish : t.finish buffer cursor = .ok { t with garbageBytes } := by
    simp only [Tally.finish, hstop, hslice, hcount, hgarbage, ok_bind, pure_eq_ok]
  refine ⟨_, hfinish, ?_⟩
  rw [Statistics.ofBuffer_of_find?_eq_none hnone]
  exact ⟨rfl, rfl, by rw [hgarbageNat, hcountNat, hrest]⟩

/-- **Every pass comes to an end**, with the counts of what was left of the buffer. -/
theorem exists_tallies (hbuffer : buffer.length < 2 ^ 64) (hcursor : cursor.toNat ≤ buffer.length)
    (ht : t.Within cursor.toNat) :
    ∃ total, Tallies buffer cursor t total ∧
      t.Adds (Statistics.ofBuffer (buffer.drop cursor.toNat)) total := by
  induction hbytes : buffer.drop cursor.toNat using records_induction generalizing cursor t with
  | none bytes h =>
    subst hbytes
    obtain ⟨tried, found, hrun⟩ := exists_searches hbuffer (Nat.le_refl cursor.toNat)
    have hfound := hrun.found_eq_decodeAt
    rw [decodeAt, h, Option.map_eq_none_iff] at hfound
    subst hfound
    obtain ⟨total, hfinish, hadds⟩ := exists_finish hbuffer hcursor ht h
    exact ⟨total, .rest hrun.run hfinish, hadds⟩
  | some bytes first h ih =>
    subst hbytes
    obtain ⟨tried, found, hrun⟩ := exists_searches hbuffer (Nat.le_refl cursor.toNat)
    have hfound := hrun.found_eq_decodeAt
    rw [decodeAt, h] at hfound
    obtain ⟨record, rfl, rfl⟩ := Option.map_eq_some_iff.mp hfound
    obtain ⟨next, t', hadd, hnext, hwithin, hadds⟩ := exists_add hbuffer h ht
    have hle : next.toNat ≤ buffer.length := by
      have hreach := reach_le_of_find? h
      rw [List.length_drop] at hreach
      omega
    have hdrop : buffer.drop next.toNat =
        (buffer.drop cursor.toNat).drop record.located.span.reach := by
      rw [hnext, List.drop_drop]
    obtain ⟨total, hmore, htotal⟩ := ih hle hwithin hdrop
    refine ⟨total, .record hrun.run hadd hmore, ?_⟩
    rw [Statistics.ofBuffer_of_find?_eq_some h]
    exact hadds _ total htotal

end

/-! ## Buffers whose length is a word -/

/-- **In a buffer whose length is a word, nothing meets a fault.**  From every index, also from one
behind the end, a search has one run.  The braces that it tries are those that a search of the bytes
tries, each behind the one before, so that the run has an end.  It finds what `decodeAt` finds: at
least two bytes within the buffer, between an opening and a closing brace, and how far they reach is
a word.  From every index a call of a cursor comes to the one end that `Cursor.next` tells.  And a
pass that counts what the buffer is made of ends with the statistics of the buffer. -/
theorem words_suffice (hbuffer : buffer.length < 2 ^ 64) (start : Word) :
    (∃ tried found,
      (∀ tried' found', Searches buffer start start tried' found' ↔
        tried' = tried ∧ found' = found) ∧
      tried.Pairwise (· < ·) ∧
      (∀ opened ∈ tried, start ≤ opened ∧ buffer[opened.toNat]? = some openBrace) ∧
      tried.map UInt64.toNat =
        (attempts (buffer.drop start.toNat)).map (fun t => start.toNat + t.offset) ∧
      found.map Found.located = decodeAt buffer start.toNat ∧
      ∀ record ∈ found, 2 ≤ record.length.toNat ∧
        start.toNat + record.offset.toNat + record.length.toNat ≤ buffer.length ∧
        buffer[start.toNat + record.offset.toNat]? = some openBrace ∧
        buffer[start.toNat + record.offset.toNat + record.length.toNat - 1]? = some closeBrace ∧
        ∃ reach, record.reach = .ok reach ∧
          reach.toNat = record.offset.toNat + record.length.toNat) ∧
    (∃ found next,
      (∀ found' next', Yields buffer start found' next' ↔ found' = found ∧ next' = next) ∧
      (Cursor.seek buffer start.toNat).next =
        (found.map Found.located, Cursor.seek buffer next.toNat)) ∧
    ∃ size total, ofCount buffer.length = .ok size ∧
      (∀ total', Tallies buffer 0 {} total' ↔ total' = total) ∧
      Statistics.ofBuffer buffer =
        { records := total.records.toNat
          totalBytes := size.toNat
          recordBytes := total.recordBytes.toNat
          garbageBytes := total.garbageBytes.toNat } := by
  obtain ⟨tried, found, hrun⟩ := exists_searches hbuffer (Nat.le_refl start.toNat)
  obtain ⟨yielded, next, hyields, hcursor⟩ := exists_yields hbuffer start
  obtain ⟨size, hsize, hsizeNat⟩ := exists_ofCount hbuffer
  have hempty : Tally.Within {} (0 : Word).toNat := ⟨Nat.le_refl _, Nat.le_refl _⟩
  obtain ⟨total, htallies, hadds⟩ := exists_tallies hbuffer (Nat.zero_le _) hempty
  have hfound := hrun.found_eq_decodeAt
  refine ⟨⟨tried, found, fun tried' found' => ⟨fun h => h.unique hrun.run, ?_⟩, hrun.pairwise,
    hrun.brace_of_mem, hrun.tried_eq, hfound, fun record hrecord => ?_⟩,
    ⟨yielded, next, fun found' next' => ⟨fun h => h.unique hyields, ?_⟩, hcursor⟩,
    ⟨size, total, hsize, fun total' => ⟨fun h => h.unique htallies, ?_⟩, ?_⟩⟩
  · rintro ⟨rfl, rfl⟩
    exact hrun.run
  · obtain rfl : found = some record := hrecord
    obtain ⟨htwo, hopen, hclose⟩ := braces_of_located hfound.symm
    obtain ⟨reach, -, hreach, -, hreachNat, -⟩ := exists_reach hbuffer hfound.symm
    have hle := reach_le_of_located hfound.symm
    exact ⟨htwo, by omega, hopen, hclose, reach, hreach, hreachNat⟩
  · rintro ⟨rfl, rfl⟩
    exact hyields
  · rintro rfl
    exact htallies
  · have hdrop : buffer.drop (0 : Word).toNat = buffer := rfl
    have hzero : (0 : Word).toNat = 0 := rfl
    rw [hdrop, statistics_eq] at hadds
    rw [statistics_eq, hadds.records, hadds.recordBytes, hadds.garbageBytes, hsizeNat]
    simp only [hzero, Nat.zero_add]

/-- A stray byte, a reserved object with braces in a value, a blank and a record, searched from the
start and from the greatest index there is. -/
theorem words_suffice_reserved : ∃ (buffer : Bytes) (tried : List Word) (record : Found)
    (total : Tally),
    buffer = Utf8.encode "x\x7b\"_\":\"\x7b\x7d\"\x7d \x7b\"a\":\"b\"\x7d" ∧
    buffer.length < 2 ^ 64 ∧
    Searches buffer 0 0 tried (some record) ∧ tried.map UInt64.toNat = [1, 12] ∧
    record.located.span = { offset := 12, length := 9 } ∧
    Searches buffer 0xFFFFFFFFFFFFFFFF 0xFFFFFFFFFFFFFFFF [] none ∧
    Yields buffer 0xFFFFFFFFFFFFFFFF none 0xFFFFFFFFFFFFFFFF ∧
    Tallies buffer 0 {} total ∧ total.recordBytes.toNat = 9 ∧ total.garbageBytes.toNat = 11 := by
  let buffer : Bytes := Utf8.encode "x\x7b\"_\":\"\x7b\x7d\"\x7d \x7b\"a\":\"b\"\x7d"
  have hlength : buffer.length < 2 ^ 64 := by decide
  have hspan : (decodeAt buffer 0).map Located.span = some { offset := 12, length := 9 } := by
    decide +kernel
  have hattempts : (attempts buffer).map (fun t => 0 + t.offset) = [1, 12] := by decide +kernel
  have hcounted : Statistics.ofBuffer buffer =
      { records := 1, totalBytes := 21, recordBytes := 9, garbageBytes := 11 } := by decide +kernel
  have hbehind : buffer.drop (0xFFFFFFFFFFFFFFFF : Word).toNat = [] := by
    exact List.drop_eq_nil_of_le (by decide)
  obtain ⟨⟨tried, found, hruns, -, -, htried, hfound, -⟩, -, _, total, -, htallies, hstats⟩ :=
    words_suffice hlength 0
  obtain ⟨⟨tried', found', hruns', -, -, htried', hfound', -⟩, -, -⟩ :=
    words_suffice hlength 0xFFFFFFFFFFFFFFFF
  rw [hbehind, attempts_nil, List.map_nil, List.map_eq_nil_iff] at htried'
  rw [decodeAt, hbehind, find?_nil, Option.map_eq_none_iff] at hfound'
  change found.map Found.located = decodeAt buffer 0 at hfound
  rw [← hfound, Option.map_map] at hspan
  obtain ⟨record, rfl, hlocated⟩ := Option.map_eq_some_iff.mp hspan
  rw [hcounted, Statistics.mk.injEq] at hstats
  exact ⟨buffer, tried, record, total, rfl, hlength, (hruns _ _).mpr ⟨rfl, rfl⟩,
    htried.trans hattempts, hlocated, (hruns' _ _).mpr ⟨htried'.symm, hfound'.symm⟩,
    .atEnd (by decide), (htallies _).mpr rfl, hstats.2.2.1.symm, hstats.2.2.2.symm⟩

end RecordLog.Machine

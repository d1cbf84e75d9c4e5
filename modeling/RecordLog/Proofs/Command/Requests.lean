import RecordLog.Proofs.Command.Posting
import RecordLog.Proofs.Command.Printing
import RecordLog.Proofs.Log.Normal

/-! # What a request does to a log

A request to list or to count shows what the log holds and leaves it alone, whatever it holds,
because every record that is found may be written.  A request to post adds one line and shows it, or
ends with an error before anything is added or shown.

* `listing`, `account`, `receipt`: what is shown of records, of statistics and of a record posted.
* `run_list`, `run_stats`, `run_post`, `run_post_of_not_postable`: one request to a log.
* `Request.shown?`, `Request.posted?`: what a request shows of a log, and the record that it posts.
* `run_of_shown?`, `run_of_posted?`, `run_of_refused`: a request by these two.
-/

namespace RecordLog.Command

open Format

/-! ## What is shown of records -/

/-- The records of a user, or any. -/
def keep (user? : Option String) (r : Record) : Bool :=
  user?.all (r.hasField "user")

/-- What is shown of records: those of one user or all, as they are written or as JSON. -/
def listing (user? : Option String) (json : Bool) (rs : List Record) : String :=
  if (rs.filter (keep user?)).isEmpty then
    if user?.isSome && !rs.isEmpty then "This user has no comments.\n" else "No comments.\n"
  else if json then Record.toPrettyJsonArray (rs.filter (keep user?)) ++ "\n"
  else Utf8.decodeLossy (linesOf (rs.filter (keep user?)))

theorem map_fields_filter_keep (user? : Option String) (rs : List Record) :
    (rs.filter (keep user?)).map Record.fields =
      (rs.map Record.fields).filter fun fields => keep user? { fields } := by
  rw [List.filter_map]
  rfl

theorem listing_congr {rs rs' : List Record} (h : rs.map Record.fields = rs'.map Record.fields)
    (user? : Option String) (json : Bool) : listing user? json rs = listing user? json rs' := by
  have hkept : (rs.filter (keep user?)).map Record.fields =
      (rs'.filter (keep user?)).map Record.fields := by
    rw [map_fields_filter_keep, h, ← map_fields_filter_keep]
  have hjson : (rs.filter (keep user?)).map Record.toList =
      (rs'.filter (keep user?)).map Record.toList := by
    have hlists := congrArg (List.map Std.ExtTreeMap.toList) hkept
    rw [List.map_map, List.map_map] at hlists
    exact hlists
  have hempty {xs ys : List Record} (h : xs.map Record.fields = ys.map Record.fields) :
      xs.isEmpty = ys.isEmpty := by
    rw [← List.isEmpty_map, h, List.isEmpty_map]
  rw [listing, listing, hempty hkept, hempty h, Record.toPrettyJsonArray,
    Record.toPrettyJsonArray, hjson, linesOf_congr hkept]

theorem filter_keep_none (rs : List Record) : rs.filter (keep none) = rs :=
  List.filter_eq_self.mpr fun _ _ => rfl

theorem listing_nil (user? : Option String) (json : Bool) :
    listing user? json [] = "No comments.\n" := by
  cases user? <;> rfl

theorem listing_of_filter_eq_nil {rs : List Record} (h : rs ≠ []) {user? : Option String}
    (hkept : rs.filter (keep user?) = []) (json : Bool) :
    listing user? json rs = "This user has no comments.\n" := by
  cases user? with
  | none =>
    rw [filter_keep_none] at hkept
    exact absurd hkept h
  | some user =>
    have hempty : rs.isEmpty = false := List.isEmpty_eq_false_iff.mpr h
    rw [listing, hkept, hempty]
    rfl

theorem listing_of_filter_ne_nil {rs : List Record} {user? : Option String}
    (h : rs.filter (keep user?) ≠ []) (json : Bool) : listing user? json rs =
      if json then Record.toPrettyJsonArray (rs.filter (keep user?)) ++ "\n"
      else Utf8.decodeLossy (linesOf (rs.filter (keep user?))) := by
  rw [listing, if_neg (mt List.isEmpty_iff.mp h)]

theorem encode_listing_none_false {rs : List Record} (h : rs ≠ []) :
    Utf8.encode (listing none false rs) = linesOf rs := by
  have hkept : rs.filter (keep none) ≠ [] := by rwa [filter_keep_none]
  rw [listing_of_filter_ne_nil hkept, if_neg Bool.false_ne_true, filter_keep_none,
    (isText_linesOf rs).encode_decodeLossy]

theorem listing_records_linesOf {rs : List Record} (h : ∀ r ∈ rs, r.Valid)
    (user? : Option String) (json : Bool) :
    listing user? json ((records (linesOf rs)).map Located.record) = listing user? json rs := by
  refine listing_congr ?_ user? json
  rw [List.map_map]
  exact map_fields_records_linesOf h

/-! ## Listing -/

section

variable {σ : Type} {log : Log (PrintingT (StateM σ))} {base : Log (StateM σ)} {s s' : σ}
  {buffer : Bytes}

theorem decodeLossy_toObject_append_newline (r : Record) :
    Utf8.decodeLossy (r.toObject ++ [newline]) = Utf8.decodeLossy r.toObject ++ "\n" := by
  have hobject : IsText r.toObject := isText_object r.toList
  exact hobject.decodeLossy_append (isText_ascii (by decide))

theorem run_forIn_lines {rs : List Record} (h : ∀ r ∈ rs, r.Valid) (out : String) (s : σ) :
    ((forIn (m := ExceptT Error (PrintingT (StateM σ))) rs PUnit.unit fun r _ => do
      printLine (Utf8.decodeLossy (← r.encode))
      pure (ForInStep.yield PUnit.unit)).run.run out).run s =
      ((.ok PUnit.unit, out ++ Utf8.decodeLossy (linesOf rs)), s) := by
  induction rs generalizing out with
  | nil =>
    rw [List.forIn_nil]
    show ((Except.ok PUnit.unit, out), s) = ((Except.ok PUnit.unit, out ++ ""), s)
    rw [String.append_empty]
  | cons r rs ih =>
    obtain ⟨hr, hrs⟩ := List.forall_mem_cons.mp h
    have hline : linesOf (r :: rs) = (r.toObject ++ [newline]) ++ linesOf rs := by
      rw [linesOf_cons, List.append_assoc]
      rfl
    have htext : IsText (r.toObject ++ [newline]) :=
      (isText_object r.toList).append (isText_ascii (by decide))
    rw [List.forIn_cons, Record.encode_eq_ok_iff.mpr ⟨hr, rfl⟩, hline,
      htext.decodeLossy_append (isText_linesOf rs), decodeLossy_toObject_append_newline,
      ← String.append_assoc]
    exact ih hrs _

theorem run_showReport (user? : Option String) (json : Bool) (buffer : Bytes) (out : String)
    (s : σ) : ((showReport (m := StateM σ) (.ofBuffer (keep user?) buffer)
      user?.isSome json).run.run out).run s =
      ((.ok (), out ++ listing user? json ((records buffer).map Located.record)), s) := by
  let found := (records buffer).map Located.record
  have hrecords : (ScanReport.ofBuffer (keep user?) buffer).records = found.filter (keep user?) :=
    rfl
  have hisEmpty : (ScanReport.ofBuffer (keep user?) buffer).isEmpty =
      (found.filter (keep user?)).isEmpty := rfl
  rw [showReport, listing, hrecords, hisEmpty]
  cases hempty : (found.filter (keep user?)).isEmpty with
  | true =>
    -- a scan for a user that kept nothing is told apart from a log without records
    have hscanned : decide (0 < found.length) = !found.isEmpty := by
      cases found <;> rfl
    have hkeptNone : (ScanReport.ofBuffer (keep user?) buffer).keptNone = !found.isEmpty := by
      rw [ScanReport.keptNone, hisEmpty, hempty, Bool.and_true]
      exact hscanned
    rw [if_pos rfl, if_pos rfl, hkeptNone, Bool.and_comm]
    cases user?.isSome && !found.isEmpty <;> rfl
  | false =>
    have hvalid : ∀ r ∈ found.filter (keep user?), r.Valid := fun r hr =>
      valid_of_mem_map_record (List.mem_of_mem_filter hr)
    rw [if_neg Bool.false_ne_true, if_neg Bool.false_ne_true]
    cases json with
    | true => rfl
    | false =>
      rw [if_neg Bool.false_ne_true, if_neg Bool.false_ne_true,
        run_bind_of_ok (run_forIn_lines hvalid out s)]
      rfl

/-- **Listing shows the records of a log**, whatever else it holds. -/
theorem run_list (hlog : QuietLog log base) (h : base.contents.run.run s = (.ok buffer, s))
    (user? : Option String) (json : Bool) (out : String) :
    ((list log user? json).run.run out).run s =
      ((.ok (), out ++ listing user? json ((records buffer).map Located.record)), s) := by
  have hlist : list log user? json =
      log.scan (keep user?) >>= fun report => showReport report user?.isSome json := by
    cases user? <;> rfl
  have hscan := (hlog.scan (keep user?)).run (Log.run_scan h (keep user?)) out
  rw [hlist, run_bind_of_ok hscan, run_showReport]

/-! ## Statistics -/

/-- What is shown of statistics. -/
def account (stats : Statistics) : String :=
  "records:       " ++ toString stats.records ++ "\n" ++
    ("total bytes:   " ++ toString stats.totalBytes ++ "\n" ++
      ("record bytes:  " ++ toString stats.recordBytes ++ "\n" ++
        ("garbage bytes: " ++ toString stats.garbageBytes ++ "\n")))

theorem run_stats (hlog : QuietLog log base) (h : base.contents.run.run s = (.ok buffer, s))
    (out : String) :
    ((stats log).run.run out).run s = ((.ok (), out ++ account (.ofBuffer buffer)), s) := by
  have hstatistics := hlog.statistics.run (Log.run_statistics h) out
  rw [stats, run_bind_of_ok hstatistics, run_bind_of_ok (run_printLine _ _ s),
    run_bind_of_ok (run_printLine _ _ s), run_bind_of_ok (run_printLine _ _ s), run_printLine]
  unfold account
  simp only [String.append_assoc]

/-! ## Posting -/

/-- What is shown of a record that was posted. -/
def receipt (r : Record) : String :=
  "Message Posted:\n" ++ Utf8.decodeLossy (r.toObject ++ [newline])

theorem encode_receipt (r : Record) : Utf8.encode (receipt r) =
    Utf8.encode "Message Posted:\n" ++ (r.toObject ++ [newline]) := by
  have htext : IsText (r.toObject ++ [newline]) :=
    (isText_object r.toList).append (isText_ascii (by decide))
  unfold receipt
  rw [Utf8.encode_append, htext.encode_decodeLossy]

theorem post_eq {user msg : String} {fields : List String} {r : Record}
    (h : postRecord user msg fields = .ok r) : post log user msg fields =
      log.write r >>= fun line =>
        printLine "Message Posted:" >>= fun _ => print (Utf8.decodeLossy line) := by
  rw [post, h]
  rfl

/-- **Posting adds one line and shows it.** -/
theorem run_post (hlog : QuietLog log base) {user msg : String} {fields : List String}
    (h : Postable user msg fields)
    (hextend : (base.extend ((recordOf user msg fields).toObject ++ [newline])).run.run s =
      (.ok (), s')) (out : String) :
    ((post log user msg fields).run.run out).run s =
      ((.ok (), out ++ receipt (recordOf user msg fields)), s') := by
  have hwrite := (hlog.write (recordOf user msg fields)).run
    (Log.run_write_of_encode_eq_ok h.encode hextend) out
  rw [post_eq h.postRecord, run_bind_of_ok hwrite, run_bind_of_ok (run_printLine _ _ s'),
    run_print, String.append_assoc]
  rfl

theorem run_post_of_not_postable (hlog : QuietLog log base) {user msg : String}
    {fields : List String} (h : ¬ Postable user msg fields) (out : String) (s : σ) :
    ∃ e, ((post log user msg fields).run.run out).run s = ((.error e, out), s) := by
  obtain ⟨e, hrecord | ⟨r, hrecord, hencode⟩⟩ := exists_error_of_not_postable h
  · refine ⟨e, ?_⟩
    rw [post, hrecord]
    rfl
  · refine ⟨e, ?_⟩
    have hwrite := (hlog.write r).run (Log.run_write_of_encode_eq_error (s := s) hencode) out
    rw [post_eq hrecord, run_bind_of_error hwrite]

/-! ## Requests -/

/-- What a request to read shows of a log that holds these bytes. -/
def Request.shown? (buffer : Bytes) : Request → Option String
  | .post .. => none
  | .list user? json => some (listing user? json ((records buffer).map Located.record))
  | .stats => some (account (.ofBuffer buffer))

/-- The record that a request posts. -/
def Request.posted? : Request → Option Record
  | .post user msg fields =>
    if Postable user msg fields then some (recordOf user msg fields) else none
  | .list .. | .stats => none

theorem Request.posted?_post_eq_some_iff {user msg : String} {fields : List String} {r : Record} :
    (post user msg fields).posted? = some r ↔
      Postable user msg fields ∧ r = recordOf user msg fields := by
  rw [posted?, Option.ite_none_right_eq_some, Option.some_inj, eq_comm (a := r)]

theorem Request.posted?_of_shown? {request : Request} {text : String}
    (h : request.shown? buffer = some text) : request.posted? = none := by
  cases request with
  | post user msg fields => cases h
  | list user? json => rfl
  | stats => rfl

theorem Request.valid_of_posted? {request : Request} {r : Record} (h : request.posted? = some r) :
    r.Valid := by
  cases request with
  | post user msg fields =>
    obtain ⟨hpostable, rfl⟩ := posted?_post_eq_some_iff.mp h
    exact hpostable.2
  | list user? json => cases h
  | stats => cases h

theorem run_of_shown? (hlog : QuietLog log base) (h : base.contents.run.run s = (.ok buffer, s))
    {request : Request} {text : String} (hshown : request.shown? buffer = some text)
    (out : String) : ((request.run log).run.run out).run s = ((.ok (), out ++ text), s) := by
  cases request with
  | post user msg fields => cases hshown
  | list user? json =>
    obtain rfl := Option.some.inj hshown
    exact run_list hlog h user? json out
  | stats =>
    obtain rfl := Option.some.inj hshown
    exact run_stats hlog h out

theorem run_of_posted? (hlog : QuietLog log base) {request : Request} {r : Record}
    (hposted : request.posted? = some r)
    (hextend : (base.extend (r.toObject ++ [newline])).run.run s = (.ok (), s')) (out : String) :
    ((request.run log).run.run out).run s = ((.ok (), out ++ receipt r), s') := by
  cases request with
  | post user msg fields =>
    obtain ⟨h, rfl⟩ := Request.posted?_post_eq_some_iff.mp hposted
    exact run_post hlog h hextend out
  | list user? json => cases hposted
  | stats => cases hposted

theorem run_of_refused (hlog : QuietLog log base) {request : Request}
    (hshown : request.shown? buffer = none) (hposted : request.posted? = none) (out : String)
    (s : σ) : ∃ e, ((request.run log).run.run out).run s = ((.error e, out), s) := by
  cases request with
  | post user msg fields =>
    refine run_post_of_not_postable hlog (fun h => ?_) out s
    rw [Request.posted?, if_pos h] at hposted
    cases hposted
  | list user? json => cases hshown
  | stats => cases hshown

end

end RecordLog.Command

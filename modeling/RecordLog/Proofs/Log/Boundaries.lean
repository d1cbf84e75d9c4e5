import RecordLog.Proofs.Format.Masked
import RecordLog.Proofs.Log.Account
import RecordLog.Proofs.Text.Lossy

/-! # Where records begin and end

Where the records of a log begin and end depends on the ASCII bytes of the log alone.  A reading does
not tell other bytes apart, and what the decoded names have to say is no exception: a name is empty
only if it has no bytes, and reserved only if its first byte is the reserved mark.  So two logs that
differ in bytes above the ASCII range have records at the same places, although two names that are
different in one may be the same in the other.

* `FieldName.valid_decodeLossy_iff`: the names that may be written, by their bytes.
* `span_find?_masked`, `span_records_masked`, `Statistics.ofBuffer_masked`: the same of a log whose
  bytes above the ASCII range are made the same.
* `SameAscii`: two logs hold the same bytes but for some above the ASCII range.
* `Log.boundaries_of_sameAscii`: they have records at the same places.
-/

namespace RecordLog

open Format

/-! ## Names -/

/-- **A name may be written if it has a first byte, and that is not the reserved mark.** -/
theorem FieldName.valid_decodeLossy_iff {bytes : Bytes} :
    Valid (Utf8.decodeLossy bytes) ↔
      ∃ b rest, bytes = b :: rest ∧ b.toNat ≠ reservedMark.toNat := by
  cases bytes with
  | nil =>
    constructor
    · rintro ⟨hne, -⟩
      exact absurd rfl hne
    · rintro ⟨b, rest, e, -⟩
      cases e
  | cons b rest =>
    have hvalid (c : Char) (hc : (Utf8.decodeLossy (b :: rest)).toList.head? = some c) :
        Valid (Utf8.decodeLossy (b :: rest)) ↔ c ≠ reservedMark := by
      rw [Valid, hc, ne_eq, ne_eq, ne_eq, Option.some_inj]
      refine and_iff_right fun hnil => ?_
      rw [hnil] at hc
      cases hc
    have hcons : (∃ b' rest', b :: rest = b' :: rest' ∧ b'.toNat ≠ reservedMark.toNat) ↔
        b.toNat ≠ reservedMark.toNat := exists_cons_eq_iff
    rw [hcons]
    rcases Nat.lt_or_ge b.toNat 0x80 with hb | hb
    · have htoNat : (Char.ofNat b.toNat).toNat = b.toNat :=
        Utf8.toNat_charOfNat (.inl (by omega))
      rw [hvalid _ (Utf8.head?_decodeLossy_of_lt hb rest), ne_eq, ← Char.toNat_inj, htoNat]
    · obtain ⟨c, hc, hge⟩ := Utf8.exists_head?_decodeLossy hb rest
      have hmark : reservedMark.toNat < 0x80 := by decide
      rw [hvalid c hc]
      constructor
      · intro _ hreserved
        omega
      · rintro - rfl
        omega

theorem FieldName.valid_decodeLossy_masked (bytes : Bytes) :
    Valid (Utf8.decodeLossy (masked bytes)) ↔ Valid (Utf8.decodeLossy bytes) := by
  rw [valid_decodeLossy_iff, valid_decodeLossy_iff]
  cases bytes with
  | nil => exact Iff.rfl
  | cons b bytes =>
    rw [masked, List.map_cons, exists_cons_eq_iff, exists_cons_eq_iff]
    have hmark : maskedByte b = 95 ↔ b = 95 := maskedByte_eq_iff (by decide)
    rw [← UInt8.toNat_inj, ← UInt8.toNat_inj] at hmark
    exact not_congr hmark

theorem writable_masked {ms : List RawMember} : Writable (ms.map maskedMember) ↔ Writable ms := by
  rw [Writable, List.forall_mem_map]
  exact forall₂_congr fun m _ => FieldName.valid_decodeLossy_masked m.1

/-! ## Searches -/

theorem inspect_masked_refuses {bytes : Bytes} (h : (inspect bytes).Refuses) :
    (inspect (masked bytes)).Refuses := by
  rw [inspect_refuses_iff] at h ⊢
  intro ms n hmasked
  rw [read_masked] at hmasked
  cases hread : Format.read bytes with
  | object ms' n' => exact h ms' n' hread
  | malformed =>
    rw [hread] at hmasked
    cases hmasked
  | truncated =>
    rw [hread] at hmasked
    cases hmasked

theorem map_span_map_shift {found other : Option Located}
    (h : found.map Located.span = other.map Located.span) (n : Nat) :
    (found.map (Located.shift n)).map Located.span =
      (other.map (Located.shift n)).map Located.span := by
  have hshift (o : Option Located) : (o.map (Located.shift n)).map Located.span =
      (o.map Located.span).map fun s => { s with offset := n + s.offset } := by
    rw [Option.map_map, Option.map_map]
    rfl
  rw [hshift, hshift, h]

/-- **A search finds a record at the same place when bytes are masked.** -/
theorem span_find?_masked (bytes : Bytes) :
    (find? (masked bytes)).map Located.span = (find? bytes).map Located.span := by
  induction bytes using search_induction with
  | nil => rfl
  | refuses b bytes h ih =>
    have hmasked := inspect_masked_refuses h
    rw [masked, List.map_cons] at hmasked ⊢
    rw [find?_cons_of_refuses h, find?_cons_of_refuses hmasked]
    exact map_span_map_shift ih 1
  | record written ms rest hobject hw =>
    rw [masked, List.map_append, find?_append_of_isObject hobject, if_pos hw]
    have hfound := find?_append_of_isObject hobject.masked (rest.map maskedByte)
    rw [if_pos (writable_masked.mpr hw)] at hfound
    rw [masked] at hfound
    rw [hfound, Option.map_some, Option.map_some, List.length_map]
  | reserved written ms rest hobject hw ih =>
    rw [masked, List.map_append, find?_append_of_isObject hobject, if_neg hw]
    have hfound := find?_append_of_isObject hobject.masked (rest.map maskedByte)
    rw [if_neg (mt writable_masked.mp hw), masked, List.length_map] at hfound
    rw [hfound]
    exact map_span_map_shift ih written.length

theorem find?_masked_eq_none {bytes : Bytes} (h : find? bytes = none) :
    find? (masked bytes) = none := by
  have hspan := span_find?_masked bytes
  rw [h, Option.map_none] at hspan
  exact Option.map_eq_none_iff.mp hspan

theorem exists_find?_masked {bytes : Bytes} {found : Located} (h : find? bytes = some found) :
    ∃ found', find? (masked bytes) = some found' ∧ found'.span = found.span := by
  have hspan := span_find?_masked bytes
  rw [h, Option.map_some] at hspan
  exact Option.map_eq_some_iff.mp hspan

/-! ## Records and statistics -/

theorem masked_drop (bytes : Bytes) (n : Nat) :
    (masked bytes).drop n = masked (bytes.drop n) :=
  List.map_drop.symm

theorem span_records_masked (bytes : Bytes) :
    (records (masked bytes)).map Located.span = (records bytes).map Located.span := by
  induction bytes using records_induction with
  | none bytes h =>
    rw [records_of_find?_eq_none h, records_of_find?_eq_none (find?_masked_eq_none h)]
  | some bytes found h ih =>
    obtain ⟨found', hfound', hspan⟩ := exists_find?_masked h
    rw [records_of_find?_eq_some h, records_of_find?_eq_some hfound', hspan, masked_drop,
      List.map_cons, List.map_cons, ih, hspan]

theorem garbage_masked (bytes : Bytes) : garbage (masked bytes) = garbage bytes := by
  rw [garbage, masked, List.countP_map, garbage]
  refine List.countP_congr fun b _ => ?_
  rw [Function.comp, isBlank_maskedByte]

/-- **The statistics are the same when bytes are masked.** -/
theorem Statistics.ofBuffer_masked (bytes : Bytes) : ofBuffer (masked bytes) = ofBuffer bytes := by
  induction bytes using records_induction with
  | none bytes h =>
    rw [ofBuffer_of_find?_eq_none h, ofBuffer_of_find?_eq_none (find?_masked_eq_none h),
      length_masked, garbage_masked]
  | some bytes found h ih =>
    obtain ⟨found', hfound', hspan⟩ := exists_find?_masked h
    have htake : (masked bytes).take found.span.offset = masked (bytes.take found.span.offset) :=
      List.map_take.symm
    rw [ofBuffer_of_find?_eq_some h, ofBuffer_of_find?_eq_some hfound', hspan, masked_drop, ih,
      htake, Statistics.cons, Statistics.cons, length_masked, garbage_masked]

/-! ## Two logs -/

/-- Two buffers of one length that at each index hold the same byte, or both one above the ASCII
range. -/
def SameAscii (bytes other : Bytes) : Prop :=
  List.Forall₂ (fun a b => a = b ∨ 0x80 ≤ a.toNat ∧ 0x80 ≤ b.toNat) bytes other

instance (bytes other : Bytes) : Decidable (SameAscii bytes other) :=
  inferInstanceAs (Decidable (List.Forall₂ _ bytes other))

theorem SameAscii.masked_eq {bytes other : Bytes} (h : SameAscii bytes other) :
    masked bytes = masked other := by
  induction h with
  | nil => rfl
  | @cons a b bytes other hab _ ih =>
    have hbyte : maskedByte a = maskedByte b := by
      rcases hab with rfl | ⟨ha, hb⟩
      · rfl
      · rw [maskedByte, maskedByte, if_neg (Nat.not_lt.mpr ha), if_neg (Nat.not_lt.mpr hb)]
    rw [masked, List.map_cons, hbyte]
    exact congrArg (maskedByte b :: ·) ih

theorem SameAscii.span_decodeAt {bytes other : Bytes} (h : SameAscii bytes other) (start : Nat) :
    (decodeAt bytes start).map Located.span = (decodeAt other start).map Located.span := by
  rw [decodeAt, ← span_find?_masked, ← masked_drop, h.masked_eq, masked_drop, span_find?_masked]
  rfl

theorem SameAscii.span_records {bytes other : Bytes} (h : SameAscii bytes other) :
    (records bytes).map Located.span = (records other).map Located.span := by
  rw [← span_records_masked, h.masked_eq, span_records_masked]

/-- **Where records begin and end depends on the ASCII bytes of a log alone.**  In two logs with the
same bytes but for some above the ASCII range, a search from any index finds records at the same
place, or none; a scan finds as many records, with the same offsets and lengths; and the statistics
are the same. -/
theorem Log.boundaries_of_sameAscii {σ τ : Type} {log : Log (StateM σ)} {other : Log (StateM τ)}
    {s : σ} {t : τ} {bytes bytes' : Bytes} (h : log.contents.run.run s = (.ok bytes, s))
    (h' : other.contents.run.run t = (.ok bytes', t)) (hsame : SameAscii bytes bytes') :
    (∀ start, (decodeAt bytes start).map Located.span =
      (decodeAt bytes' start).map Located.span) ∧
    ∃ (found found' : List Record) (stats : Statistics),
      log.allRecords.run.run s = (.ok found, s) ∧
      other.allRecords.run.run t = (.ok found', t) ∧
      found.length = found'.length ∧ found.map Record.span = found'.map Record.span ∧
      log.statistics.run.run s = (.ok stats, s) ∧
      other.statistics.run.run t = (.ok stats, t) := by
  have hspans := hsame.span_records
  have hrecords : ((records bytes).map Located.record).map Record.span =
      ((records bytes').map Located.record).map Record.span := by
    have hsome := congrArg (List.map some) hspans
    rw [List.map_map, List.map_map] at hsome ⊢
    exact hsome
  have hstats : Statistics.ofBuffer bytes' = Statistics.ofBuffer bytes := by
    rw [← Statistics.ofBuffer_masked, ← hsame.masked_eq, Statistics.ofBuffer_masked]
  refine ⟨hsame.span_decodeAt, _, _, _, Log.run_allRecords h, Log.run_allRecords h', ?_, hrecords,
    Log.run_statistics h, ?_⟩
  · have hlength := congrArg List.length hrecords
    simpa only [List.length_map] using hlength
  · rw [Log.run_statistics h', hstats]

/-- Two names that are two characters in one log and the same ill-formed bytes in the other. -/
theorem Log.boundaries_of_sameAscii_collapsed :
    ∃ (bytes bytes' : Bytes) (found found' : List Record) (stats : Statistics),
    bytes = Utf8.encode "ü\x7b\"é\":\"1\",\"è\":\"2\"\x7d\n" ∧
    bytes' = [0x80, 0x80] ++ Utf8.encode "\x7b\"" ++ [0xFF, 0xFF] ++ Utf8.encode "\":\"1\",\"" ++
      [0xFF, 0xFF] ++ Utf8.encode "\":\"2\"\x7d\n" ∧
    SameAscii bytes bytes' ∧
    Log.memory.allRecords.run.run bytes = (.ok found, bytes) ∧
    Log.memory.allRecords.run.run bytes' = (.ok found', bytes') ∧
    found.map Record.size = [2] ∧ found'.map Record.size = [1] ∧
    found.map Record.span = found'.map Record.span ∧
    Log.memory.statistics.run.run bytes = (.ok stats, bytes) ∧
    Log.memory.statistics.run.run bytes' = (.ok stats, bytes') := by
  let bytes : Bytes := Utf8.encode "ü\x7b\"é\":\"1\",\"è\":\"2\"\x7d\n"
  let bytes' : Bytes := [0x80, 0x80] ++ Utf8.encode "\x7b\"" ++ [0xFF, 0xFF] ++
    Utf8.encode "\":\"1\",\"" ++ [0xFF, 0xFF] ++ Utf8.encode "\":\"2\"\x7d\n"
  have hsame : SameAscii bytes bytes' := by decide +kernel
  obtain ⟨-, found, found', stats, hfound, hfound', -, hspan, hstats, hstats'⟩ :=
    Log.boundaries_of_sameAscii (Log.run_contents_memory bytes) (Log.run_contents_memory bytes')
      hsame
  have hrecords :=
    Except.ok.inj (Prod.mk.inj ((Log.run_allRecords_memory bytes).symm.trans hfound)).1
  have hrecords' :=
    Except.ok.inj (Prod.mk.inj ((Log.run_allRecords_memory bytes').symm.trans hfound')).1
  refine ⟨bytes, bytes', found, found', stats, rfl, rfl, hsame, hfound, hfound', ?_, ?_, hspan,
    hstats, hstats'⟩
  · rw [← hrecords]
    decide +kernel
  · rw [← hrecords']
    decide +kernel

end RecordLog

import Mathlib.Algebra.GroupWithZero.Nat
import RecordLog.Proofs.Failure
import RecordLog.Proofs.Search.Attempts

/-! # A search that counts in words

A machine counts in words of 64 bits.  A sum that takes more bits is a fault there, and so is a
difference below zero, or a stretch of a buffer that is not within it.  Here the search is told as a
machine does it: a loop over indices of the buffer, with one turn for each opening brace, which
computes the span of a record from three indices.  A run of the loop is one that meets no fault and
comes to an end.

In a buffer whose length is a word there is such a run from every index, also from one far behind
the end, and it finds what `decodeAt` finds.  What carries the proof is that the start, the cursor,
the brace and the closing brace stand in this order, and before the end of the buffer; so each sum
is an index of the buffer or its length, and each difference is taken from the greater of two.

* `Fault`, `plus`, `minus`, `ofCount`, `slice`: arithmetic that tells faults.
* `turn`, `Searches`: one turn of the loop, and its runs with the braces that they try.
* `Searches.unique`: a search has at most one run.
* `turn_of_not_mem`, `exists_turn_found`, `exists_turn_reserved`, `exists_turn_refused`: what one
  turn comes to.
* `RunsLike`: a run does what a search of the bytes does.
* `exists_searches`: every search has a run, and that is so of it.
-/

namespace RecordLog.Machine

open Format

/-! ## Words -/

/-- A number of 64 bits. -/
abbrev Word := UInt64

/-- Why a computation cannot go on. -/
inductive Fault where
  /-- A number takes more bits than a word has. -/
  | overflow
  /-- More is taken away than there is. -/
  | underflow
  /-- A stretch of a buffer ends before it begins, or behind the end of the buffer. -/
  | outOfRange
  deriving DecidableEq, Repr

def plus (a b : Word) : Except Fault Word :=
  if a.toNat + b.toNat < 2 ^ 64 then .ok (a + b) else .error .overflow

def minus (a b : Word) : Except Fault Word :=
  if b ≤ a then .ok (a - b) else .error .underflow

/-- A number of things as a word. -/
def ofCount (n : Nat) : Except Fault Word :=
  if n < 2 ^ 64 then .ok (.ofNat n) else .error .overflow

/-- The bytes of a buffer from an index up to another. -/
def slice (buffer : Bytes) (first last : Word) : Except Fault Bytes :=
  if first ≤ last ∧ last.toNat ≤ buffer.length then .ok (buffer.extract first.toNat last.toNat)
  else .error .outOfRange

section

variable {a b : Word}

theorem exists_plus (h : a.toNat + b.toNat < 2 ^ 64) :
    ∃ c, plus a b = .ok c ∧ c.toNat = a.toNat + b.toNat := by
  refine ⟨a + b, if_pos h, ?_⟩
  rw [UInt64.toNat_add, Nat.mod_eq_of_lt h]

theorem exists_plus_one (h : a.toNat + 1 < 2 ^ 64) :
    ∃ c, plus a 1 = .ok c ∧ c.toNat = a.toNat + 1 :=
  exists_plus h

theorem exists_minus (h : b.toNat ≤ a.toNat) :
    ∃ c, minus a b = .ok c ∧ c.toNat = a.toNat - b.toNat :=
  ⟨a - b, if_pos (UInt64.le_iff_toNat_le.mpr h),
    UInt64.toNat_sub_of_le a b (UInt64.le_iff_toNat_le.mpr h)⟩

theorem exists_ofCount {n : Nat} (h : n < 2 ^ 64) : ∃ c, ofCount n = .ok c ∧ c.toNat = n :=
  ⟨.ofNat n, if_pos h, UInt64.toNat_ofNat_of_lt' h⟩

theorem slice_eq_ok (buffer : Bytes) (h : a.toNat ≤ b.toNat) (hlast : b.toNat ≤ buffer.length) :
    slice buffer a b = .ok (buffer.extract a.toNat b.toNat) :=
  if_pos ⟨UInt64.le_iff_toNat_le.mpr h, hlast⟩

end

theorem drop_of_drop_eq_append {buffer rest : Bytes} {m n : Nat} (front : Bytes)
    (hdrop : buffer.drop m = front ++ rest) (hn : n = m + front.length) : buffer.drop n = rest := by
  rw [hn, ← List.drop_drop, hdrop, List.drop_left]

/-! ## One object -/

/-- Goes on with a reading at the byte of this index.  Yields the members of the object and the
index of its closing brace, if there is one. -/
def readFrom (index : Word) : State → Bytes → Except Fault (Option (List RawMember × Word))
  | _, [] => .ok none
  | state, b :: rest =>
    match state.step b with
    | .next state => do readFrom (← plus index 1) state rest
    | .close members => .ok (some (members, index))
    | .fail => .ok none

/-- What stands at an opening brace, with the index of the closing one. -/
inductive Outcome where
  | complete (fields : Fields) (close : Word)
  | rejected (close : Word)
  | invalid

/-- What is made of the members that were read, by their names. -/
def Outcome.ofRead : Option (List RawMember × Word) → Outcome
  | some (members, close) =>
    let fields := members.map fieldOf
    if ∀ f ∈ fields, FieldName.Valid f.1 then complete (.ofList fields) close else rejected close
  | none => invalid

/-- Reads what stands at an opening brace. -/
def attemptAt (buffer : Bytes) (opened : Word) : Except Fault Outcome := do
  let index ← plus opened 1
  return .ofRead (← readFrom index .opening (buffer.drop index.toNat))

/-- The members and the length of an object that was read. -/
def object? : Reading → Option (List RawMember × Nat)
  | .object members length => some (members, length)
  | .malformed | .truncated => none

section

variable {buffer rest : Bytes} {opened : Word}

/-- **A reading by indices is the reading by lengths**: the index behind the closing brace is as far
behind `first` as the object is long. -/
theorem exists_readFrom {first taken : Nat} {index : Word} (state : State) (bytes : Bytes)
    (hindex : index.toNat = first + taken) (hfits : index.toNat + bytes.length < 2 ^ 64) :
    ∃ found, readFrom index state bytes = .ok found ∧
      found.map (fun x => (x.1, x.2.toNat + 1)) =
        (object? (state.run taken bytes)).map (fun x => (x.1, first + x.2)) := by
  induction bytes generalizing index state taken with
  | nil => exact ⟨none, rfl, rfl⟩
  | cons b bytes ih =>
    rw [List.length_cons] at hfits
    rw [readFrom, State.run]
    cases hstep : state.step b with
    | next state' =>
      obtain ⟨next, hnext, hnat⟩ := exists_plus_one (a := index) (by omega)
      have hbehind : next.toNat = first + (taken + 1) := by omega
      obtain ⟨found, hfound, hmap⟩ := ih state' hbehind (by omega)
      refine ⟨found, ?_, hmap⟩
      simp only [hnext, ok_bind, hfound]
    | close members =>
      refine ⟨some (members, index), rfl, ?_⟩
      rw [object?, Option.map_some, Option.map_some, hindex, Nat.add_assoc]
    | fail => exact ⟨none, rfl, rfl⟩

theorem exists_attemptAt (hbuffer : buffer.length < 2 ^ 64)
    (hdrop : buffer.drop opened.toNat = openBrace :: rest) :
    ∃ found, attemptAt buffer opened = .ok (.ofRead found) ∧
      found.map (fun x => (x.1, x.2.toNat + 1)) =
        (object? (Format.read (openBrace :: rest))).map (fun x => (x.1, opened.toNat + x.2)) := by
  have hlength := congrArg List.length hdrop
  rw [List.length_drop, List.length_cons] at hlength
  obtain ⟨index, hindex, hnat⟩ := exists_plus_one (a := opened) (by omega)
  have hrest : buffer.drop index.toNat = rest :=
    drop_of_drop_eq_append [openBrace] hdrop hnat
  obtain ⟨found, hfound, hmap⟩ := exists_readFrom .opening rest hnat (by omega)
  refine ⟨found, ?_, ?_⟩
  · simp only [attemptAt, hindex, hrest, hfound, ok_bind, pure_eq_ok]
  · rw [Format.read, if_pos rfl, hmap]

theorem attemptAt_of_refuses (hbuffer : buffer.length < 2 ^ 64)
    (hdrop : buffer.drop opened.toNat = openBrace :: rest)
    (h : (inspect (openBrace :: rest)).Refuses) : attemptAt buffer opened = .ok .invalid := by
  obtain ⟨found, hfound, hmap⟩ := exists_attemptAt hbuffer hdrop
  have hnone : object? (Format.read (openBrace :: rest)) = none := by
    cases hread : Format.read (openBrace :: rest) with
    | object ms n => exact absurd hread (inspect_refuses_iff.mp h ms n)
    | malformed => rfl
    | truncated => rfl
  rw [hnone, Option.map_none, Option.map_eq_none_iff] at hmap
  rw [hfound, hmap, Outcome.ofRead]

theorem Outcome.ofRead_some (ms : List RawMember) (close : Word) :
    Outcome.ofRead (some (ms, close)) =
      if Writable ms then complete (fieldsOf ms) close else rejected close := by
  have hnames : (∀ f ∈ ms.map fieldOf, FieldName.Valid f.1) ↔ Writable ms := List.forall_mem_map
  rw [ofRead]
  simp only [hnames, ofList_map_fieldOf]

/-- **Where an object stands, an attempt comes to its closing brace.** -/
theorem exists_attemptAt_of_isObject {written : Bytes} {ms : List RawMember}
    (hbuffer : buffer.length < 2 ^ 64) (hdrop : buffer.drop opened.toNat = written ++ rest)
    (h : IsObject written ms) :
    ∃ close : Word, close.toNat + 1 = opened.toNat + written.length ∧
      attemptAt buffer opened =
        .ok (if Writable ms then .complete (fieldsOf ms) close else .rejected close) := by
  have hread := h.read_append rest
  obtain ⟨tail, rfl, -⟩ := isObject_iff.mp h
  rw [List.cons_append] at hread hdrop
  obtain ⟨found, hfound, hmap⟩ := exists_attemptAt hbuffer hdrop
  rw [hread, object?, Option.map_some] at hmap
  obtain ⟨⟨ms', close⟩, rfl, hclose⟩ := Option.map_eq_some_iff.mp hmap
  obtain ⟨rfl, hnat⟩ := Prod.mk.inj hclose
  exact ⟨close, hnat, by rw [hfound, Outcome.ofRead_some]⟩

end

/-! ## The loop -/

/-- The index of the first opening brace at an index or behind it. -/
def braceFrom (buffer : Bytes) (index : Word) : Except Fault (Option Word) :=
  if index.toNat ≤ buffer.length then
    match (buffer.drop index.toNat).findIdx? (· == openBrace) with
    | some passed => do return some (← plus index (← ofCount passed))
    | none => .ok none
  else .ok none

/-- A found record, with its span in words. -/
structure Found where
  fields : Fields
  offset : Word
  length : Word

def Found.located (f : Found) : Located :=
  { fields := f.fields, span := { offset := f.offset.toNat, length := f.length.toNat } }

/-- How far past the start of the search the record ends. -/
def Found.reach (f : Found) : Except Fault Word :=
  plus f.offset f.length

/-- What one turn of a search comes to. -/
inductive Turn where
  /-- There is no further brace. -/
  | stop
  /-- A record opens at this brace. -/
  | found (opened : Word) (record : Found)
  /-- No record opens at this brace, and the search goes on at another index. -/
  | again (opened next : Word)

/-- One turn of a search that began at `start` and has come to `cursor`. -/
def turn (buffer : Bytes) (start cursor : Word) : Except Fault Turn := do
  match ← braceFrom buffer cursor with
  | none => return .stop
  | some opened =>
    match ← attemptAt buffer opened with
    | .complete fields close =>
      let offset ← minus opened start
      let length ← minus (← plus close 1) opened
      return .found opened { fields, offset, length }
    | .rejected close => return .again opened (← plus close 1)
    | .invalid => return .again opened (← plus opened 1)

/-- A run of a search that began at `start` and has come to an index: the braces it tries from there
on, and the record it finds. -/
inductive Searches (buffer : Bytes) (start : Word) : Word → List Word → Option Found → Prop
  | stop {cursor : Word} :
      turn buffer start cursor = .ok .stop → Searches buffer start cursor [] none
  | found {cursor opened : Word} {record : Found} :
      turn buffer start cursor = .ok (.found opened record) →
      Searches buffer start cursor [opened] (some record)
  | again {cursor opened next : Word} {tried : List Word} {found : Option Found} :
      turn buffer start cursor = .ok (.again opened next) →
      Searches buffer start next tried found →
      Searches buffer start cursor (opened :: tried) found

section

variable {buffer : Bytes} {start cursor : Word}

theorem Searches.unique {tried tried' : List Word} {found found' : Option Found}
    (h : Searches buffer start cursor tried found)
    (h' : Searches buffer start cursor tried' found') : tried = tried' ∧ found = found' := by
  induction h generalizing tried' found' with
  | stop hturn =>
    cases h' with
    | stop _ => exact ⟨rfl, rfl⟩
    | found hturn' | again hturn' _ =>
      rw [hturn] at hturn'
      cases hturn'
  | found hturn =>
    cases h' with
    | found hturn' =>
      rw [hturn] at hturn'
      cases hturn'
      exact ⟨rfl, rfl⟩
    | stop hturn' | again hturn' _ =>
      rw [hturn] at hturn'
      cases hturn'
  | again hturn _ ih =>
    cases h' with
    | again hturn' hmore =>
      rw [hturn] at hturn'
      cases hturn'
      obtain ⟨rfl, rfl⟩ := ih hmore
      exact ⟨rfl, rfl⟩
    | stop hturn' | found hturn' =>
      rw [hturn] at hturn'
      cases hturn'

/-! ## One turn -/

section

variable {gap rest : Bytes}

theorem turn_of_not_mem (h : openBrace ∉ buffer.drop cursor.toNat) :
    turn buffer start cursor = .ok .stop := by
  have hnone : (buffer.drop cursor.toNat).findIdx? (· == openBrace) = none := by
    rw [List.findIdx?_eq_none_iff]
    exact fun b hb => beq_eq_false_iff_ne.mpr fun he => h (he ▸ hb)
  have hbrace : braceFrom buffer cursor = .ok none := by
    rw [braceFrom, hnone]
    exact ite_self _
  simp only [turn, hbrace, ok_bind, pure_eq_ok]

theorem exists_braceFrom (hbuffer : buffer.length < 2 ^ 64)
    (hdrop : buffer.drop cursor.toNat = gap ++ openBrace :: rest) (hgap : openBrace ∉ gap) :
    ∃ opened, braceFrom buffer cursor = .ok (some opened) ∧
      opened.toNat = cursor.toNat + gap.length ∧
      buffer.drop opened.toNat = openBrace :: rest := by
  have hlength := congrArg List.length hdrop
  rw [List.length_drop, List.length_append, List.length_cons] at hlength
  have hpassed : (gap ++ openBrace :: rest).findIdx? (· == openBrace) = some gap.length := by
    have hnone : gap.findIdx? (· == openBrace) = none := by
      rw [List.findIdx?_eq_none_iff]
      exact fun b hb => beq_eq_false_iff_ne.mpr fun he => hgap (he ▸ hb)
    rw [List.findIdx?_append, hnone, List.findIdx?_cons, if_pos (beq_self_eq_true _)]
    simp
  obtain ⟨passed, hcount, hcountNat⟩ := exists_ofCount (n := gap.length) (by omega)
  obtain ⟨opened, hplus, hnat⟩ := exists_plus (a := cursor) (b := passed) (by omega)
  have hopened : opened.toNat = cursor.toNat + gap.length := by omega
  refine ⟨opened, ?_, hopened, ?_⟩
  · rw [braceFrom, if_pos (by omega), hdrop, hpassed]
    simp only [hcount, hplus, ok_bind, pure_eq_ok]
  · exact drop_of_drop_eq_append gap hdrop hopened

theorem exists_turn_refused (start : Word) (hbuffer : buffer.length < 2 ^ 64)
    (hdrop : buffer.drop cursor.toNat = gap ++ openBrace :: rest) (hgap : openBrace ∉ gap)
    (h : (inspect (openBrace :: rest)).Refuses) :
    ∃ opened next, turn buffer start cursor = .ok (.again opened next) ∧
      opened.toNat = cursor.toNat + gap.length ∧ next.toNat = opened.toNat + 1 := by
  obtain ⟨opened, hbrace, hopened, hrest⟩ := exists_braceFrom hbuffer hdrop hgap
  have hlength := congrArg List.length hrest
  rw [List.length_drop, List.length_cons] at hlength
  obtain ⟨next, hnext, hnat⟩ := exists_plus_one (a := opened) (by omega)
  have hattempt := attemptAt_of_refuses hbuffer hrest h
  refine ⟨opened, next, ?_, hopened, hnat⟩
  simp only [turn, hbrace, hattempt, hnext, ok_bind, pure_eq_ok]

section

variable {written : Bytes} {ms : List RawMember}

theorem exists_opened_of_isObject (hbuffer : buffer.length < 2 ^ 64)
    (hdrop : buffer.drop cursor.toNat = gap ++ (written ++ rest)) (hgap : openBrace ∉ gap)
    (h : IsObject written ms) :
    ∃ opened close past, braceFrom buffer cursor = .ok (some opened) ∧
      attemptAt buffer opened =
        .ok (if Writable ms then .complete (fieldsOf ms) close else .rejected close) ∧
      plus close 1 = .ok past ∧
      opened.toNat = cursor.toNat + gap.length ∧ past.toNat = opened.toNat + written.length := by
  obtain ⟨tail, htail, -⟩ := isObject_iff.mp h
  rw [htail, List.cons_append] at hdrop
  obtain ⟨opened, hbrace, hopened, hrest⟩ := exists_braceFrom hbuffer hdrop hgap
  rw [← List.cons_append, ← htail] at hrest
  have hlength := congrArg List.length hrest
  have htwo := h.two_le_length
  rw [List.length_drop, List.length_append] at hlength
  obtain ⟨close, hclose, hattempt⟩ := exists_attemptAt_of_isObject hbuffer hrest h
  obtain ⟨past, hpast, hnat⟩ := exists_plus_one (a := close) (by omega)
  exact ⟨opened, close, past, hbrace, hattempt, hpast, hopened, by omega⟩

theorem exists_turn_found (hbuffer : buffer.length < 2 ^ 64) (hstart : start.toNat ≤ cursor.toNat)
    (hdrop : buffer.drop cursor.toNat = gap ++ (written ++ rest)) (hgap : openBrace ∉ gap)
    (h : IsObject written ms) (hw : Writable ms) :
    ∃ opened record, turn buffer start cursor = .ok (.found opened record) ∧
      opened.toNat = cursor.toNat + gap.length ∧
      record.located = ⟨fieldsOf ms,
        { offset := opened.toNat - start.toNat, length := written.length }⟩ := by
  obtain ⟨opened, close, past, hbrace, hattempt, hpast, hopened, hnat⟩ :=
    exists_opened_of_isObject hbuffer hdrop hgap h
  rw [if_pos hw] at hattempt
  obtain ⟨offset, hoffset, hoffsetNat⟩ := exists_minus (a := opened) (b := start) (by omega)
  obtain ⟨length, hlength, hlengthNat⟩ := exists_minus (a := past) (b := opened) (by omega)
  refine ⟨opened, ⟨fieldsOf ms, offset, length⟩, ?_, hopened, ?_⟩
  · simp only [turn, hbrace, hattempt, hoffset, hpast, hlength, ok_bind, pure_eq_ok]
  · rw [Found.located, hoffsetNat, hlengthNat, hnat, Nat.add_sub_cancel_left]

theorem exists_turn_reserved (start : Word) (hbuffer : buffer.length < 2 ^ 64)
    (hdrop : buffer.drop cursor.toNat = gap ++ (written ++ rest)) (hgap : openBrace ∉ gap)
    (h : IsObject written ms) (hw : ¬ Writable ms) :
    ∃ opened next, turn buffer start cursor = .ok (.again opened next) ∧
      opened.toNat = cursor.toNat + gap.length ∧ next.toNat = opened.toNat + written.length := by
  obtain ⟨opened, close, past, hbrace, hattempt, hpast, hopened, hnat⟩ :=
    exists_opened_of_isObject hbuffer hdrop hgap h
  rw [if_neg hw] at hattempt
  refine ⟨opened, past, ?_, hopened, hnat⟩
  simp only [turn, hbrace, hattempt, hpast, ok_bind, pure_eq_ok]

end

end

/-! ## Runs -/

/-- A run tries these braces, as many bytes behind an index as the attempts of a search of the bytes
from there on, and finds what that search finds. -/
structure RunsLike (buffer : Bytes) (start cursor : Word) (tried : List Word)
    (found : Option Found) : Prop where
  run : Searches buffer start cursor tried found
  tried_eq : tried.map UInt64.toNat =
    (attempts (buffer.drop cursor.toNat)).map fun t => cursor.toNat + t.offset
  found_eq : found.map Found.located =
    (find? (buffer.drop cursor.toNat)).map (Located.shift (cursor.toNat - start.toNat))

theorem RunsLike.again {opened next : Word} {tried : List Word} {found : Option Found}
    (h : RunsLike buffer start next tried found) (hstart : start.toNat ≤ cursor.toNat) (n : Nat)
    (first : Attempt) (hturn : turn buffer start cursor = .ok (.again opened next))
    (hopened : opened.toNat = cursor.toNat + first.offset) (hnext : next.toNat = cursor.toNat + n)
    (hattempts : attempts (buffer.drop cursor.toNat) =
      first :: (attempts (buffer.drop next.toNat)).map (Attempt.shift n))
    (hfind : find? (buffer.drop cursor.toNat) =
      (find? (buffer.drop next.toNat)).map (Located.shift n)) :
    RunsLike buffer start cursor (opened :: tried) found where
  run := .again hturn h.run
  tried_eq := by
    rw [hattempts, List.map_cons, List.map_cons, hopened, h.tried_eq, List.map_map]
    congr 2
    funext t
    rw [Function.comp_apply, Attempt.shift, hnext, Nat.add_assoc]
  found_eq := by
    rw [h.found_eq, hfind, Located.map_shift_map_shift, hnext]
    congr 2
    omega

theorem RunsLike.of_not_mem (h : openBrace ∉ buffer.drop cursor.toNat) :
    RunsLike buffer start cursor [] none where
  run := .stop (turn_of_not_mem h)
  tried_eq := by
    have hnone := attempts_append_of_not_mem h []
    rw [List.append_nil, attempts_nil] at hnone
    rw [hnone]
    rfl
  found_eq := by
    rw [find?_of_not_mem h]
    rfl

section

variable {gap rest written : Bytes} {ms : List RawMember}

theorem exists_runsLike_of_refuses (hbuffer : buffer.length < 2 ^ 64)
    (hstart : start.toNat ≤ cursor.toNat)
    (hdrop : buffer.drop cursor.toNat = gap ++ openBrace :: rest) (hgap : openBrace ∉ gap)
    (h : (inspect (openBrace :: rest)).Refuses)
    (hmore : ∀ next : Word, cursor.toNat < next.toNat → next.toNat ≤ buffer.length →
      ∃ tried found, RunsLike buffer start next tried found) :
    ∃ tried found, RunsLike buffer start cursor tried found := by
  obtain ⟨opened, next, hturn, hopened, hnext⟩ :=
    exists_turn_refused start hbuffer hdrop hgap h
  have hlength := congrArg List.length hdrop
  rw [List.length_drop, List.length_append, List.length_cons] at hlength
  obtain ⟨tried, found, hrun⟩ := hmore next (by omega) (by omega)
  have hbehind : next.toNat = cursor.toNat + (gap.length + 1) := by omega
  have hrest : buffer.drop next.toNat = rest :=
    drop_of_drop_eq_append (gap ++ [openBrace]) (by rw [hdrop, List.append_assoc]; rfl)
      (by rw [hbehind, List.length_append]; rfl)
  refine ⟨_, found, hrun.again hstart (gap.length + 1)
    (Attempt.shift gap.length { offset := 0, bytes := openBrace :: rest }) hturn hopened hbehind
    ?_ ?_⟩
  · rw [hrest, hdrop, attempts_append_of_not_mem hgap, attempts_cons_of_refuses h, List.map_cons,
      Attempt.map_shift_map_shift]
  · rw [hrest, hdrop, find?_append_of_not_mem hgap, find?_cons_of_refuses h,
      Located.map_shift_map_shift]

theorem exists_runsLike_of_reserved (hbuffer : buffer.length < 2 ^ 64)
    (hstart : start.toNat ≤ cursor.toNat)
    (hdrop : buffer.drop cursor.toNat = gap ++ (written ++ rest)) (hgap : openBrace ∉ gap)
    (h : IsObject written ms) (hw : ¬ Writable ms)
    (hmore : ∀ next : Word, cursor.toNat < next.toNat → next.toNat ≤ buffer.length →
      ∃ tried found, RunsLike buffer start next tried found) :
    ∃ tried found, RunsLike buffer start cursor tried found := by
  obtain ⟨opened, next, hturn, hopened, hnext⟩ :=
    exists_turn_reserved start hbuffer hdrop hgap h hw
  have hlength := congrArg List.length hdrop
  have htwo := h.two_le_length
  rw [List.length_drop, List.length_append, List.length_append] at hlength
  obtain ⟨tried, found, hrun⟩ := hmore next (by omega) (by omega)
  have hbehind : next.toNat = cursor.toNat + (gap.length + written.length) := by omega
  have hrest : buffer.drop next.toNat = rest :=
    drop_of_drop_eq_append (gap ++ written) (by rw [hdrop, List.append_assoc])
      (by rw [hbehind, List.length_append])
  refine ⟨_, found, hrun.again hstart (gap.length + written.length)
    (Attempt.shift gap.length { offset := 0, bytes := written ++ rest }) hturn hopened hbehind
    ?_ ?_⟩
  · rw [hrest, hdrop, attempts_append_of_not_mem hgap, attempts_append_of_isObject h, if_neg hw,
      List.map_cons, Attempt.map_shift_map_shift]
  · rw [hrest, hdrop, find?_append_of_not_mem hgap, find?_append_of_isObject h, if_neg hw,
      Located.map_shift_map_shift]

theorem exists_runsLike_of_record (hbuffer : buffer.length < 2 ^ 64)
    (hstart : start.toNat ≤ cursor.toNat)
    (hdrop : buffer.drop cursor.toNat = gap ++ (written ++ rest)) (hgap : openBrace ∉ gap)
    (h : IsObject written ms) (hw : Writable ms) :
    ∃ tried found, RunsLike buffer start cursor tried found := by
  obtain ⟨opened, record, hturn, hopened, hlocated⟩ :=
    exists_turn_found hbuffer hstart hdrop hgap h hw
  refine ⟨_, _, .found hturn, ?_, ?_⟩
  · rw [hdrop, attempts_append_of_not_mem hgap, attempts_append_of_isObject h, if_pos hw,
      List.map_singleton, List.map_singleton, List.map_singleton, hopened]
    rfl
  · have hoffset : opened.toNat - start.toNat = cursor.toNat - start.toNat + (gap.length + 0) := by
      omega
    rw [hdrop, find?_append_of_not_mem hgap, find?_append_of_isObject h, if_pos hw,
      Option.map_some, hlocated, hoffset]
    rfl

end

/-- **Every search has a run**, which tries the braces that a search of the bytes tries, and finds
what that finds. -/
theorem exists_searches (hbuffer : buffer.length < 2 ^ 64) (hstart : start.toNat ≤ cursor.toNat) :
    ∃ tried found, RunsLike buffer start cursor tried found := by
  -- on how many bytes are left: each turn but the last takes at least the brace
  induction hn : buffer.length - cursor.toNat using Nat.strongRecOn generalizing cursor with
  | ind n ih =>
    have hmore : ∀ next : Word, cursor.toNat < next.toNat → next.toNat ≤ buffer.length →
        ∃ tried found, RunsLike buffer start next tried found := fun next hlt hle => by
      have hbehind : start.toNat ≤ next.toNat := by omega
      exact ih (buffer.length - next.toNat) (by omega) hbehind rfl
    by_cases hmem : openBrace ∈ buffer.drop cursor.toNat
    · obtain ⟨gap, rest, hdrop, hgap⟩ := List.eq_append_cons_of_mem hmem
      rcases inspect_refuses_or (openBrace :: rest) with h | ⟨written, rest', ms, e, hobject⟩
      · exact exists_runsLike_of_refuses hbuffer hstart hdrop hgap h hmore
      · rw [e] at hdrop
        by_cases hw : Writable ms
        · exact exists_runsLike_of_record hbuffer hstart hdrop hgap hobject hw
        · exact exists_runsLike_of_reserved hbuffer hstart hdrop hgap hobject hw hmore
    · exact ⟨[], none, .of_not_mem hmem⟩

/-! ## What a run tries and finds -/

section

variable {tried : List Word} {found : Option Found}

/-- **Each brace is tried behind the one before**, so that none is tried twice. -/
theorem RunsLike.pairwise (h : RunsLike buffer start cursor tried found) :
    tried.Pairwise (· < ·) := by
  have hattempts : ((attempts (buffer.drop cursor.toNat)).map fun t =>
      cursor.toNat + t.offset).Pairwise (· < ·) :=
    List.pairwise_map.mpr ((pairwise_attempts _).imp fun hlt => Nat.add_lt_add_left hlt _)
  rw [← h.tried_eq, List.pairwise_map] at hattempts
  exact hattempts.imp UInt64.lt_iff_toNat_lt.mpr

theorem RunsLike.brace_of_mem (h : RunsLike buffer start cursor tried found) :
    ∀ opened ∈ tried, cursor ≤ opened ∧ buffer[opened.toNat]? = some openBrace := by
  intro opened hmem
  have hnat := List.mem_map_of_mem (f := UInt64.toNat) hmem
  rw [h.tried_eq] at hnat
  obtain ⟨t, ht, hopened⟩ := List.mem_map.mp hnat
  obtain ⟨hdrop, hhead⟩ := attempts_standIn _ t ht
  refine ⟨UInt64.le_iff_toNat_le.mpr (by omega), ?_⟩
  rw [← hdrop, List.drop_drop, hopened, List.head?_drop] at hhead
  exact hhead

theorem RunsLike.found_eq_decodeAt (h : RunsLike buffer start start tried found) :
    found.map Found.located = decodeAt buffer start.toNat := by
  rw [h.found_eq, Nat.sub_self, Located.map_shift_zero, decodeAt]

end

end

end RecordLog.Machine

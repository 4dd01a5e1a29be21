import Ns3Cosim.Words.Unambiguous
import Ns3Cosim.Gateway.Response
import Ns3Cosim.Gateway.Header

/-!
# What a peer makes of the responses

A peer that cuts the transmitted bytes as the gateway itself cuts what it
receives. The checks of the constructor and of `SetValue` look at one word at a
time, so a delimiter can still arise where two words meet. Which responses are
read back, and which delimiters admit no others, is settled here.
-/

namespace Ns3Cosim.Gateway

open Words

variable {D : Delimiters}

/-- A call of the simulation script on the outgoing side. -/
inductive Call
  | setValue (index : ℕ) (value : Str)
  | sendResponse
  deriving DecidableEq

/-- One call, with a `send` that transmits all bytes. -/
def Outbound.call (D : Delimiters) (o : Outbound) : Call → Except FatalError Outbound
  | .setValue index value => Gateway.setValue D o index value
  | .sendResponse => .ok (Gateway.sendResponse D o true)

/-- A sequence of calls, up to the first that fails. -/
def Outbound.perform (D : Delimiters) (o : Outbound) (calls : List Call) :
    Except FatalError Outbound :=
  calls.foldlM (Outbound.call D) o

/-- The value that a call sets at an index. -/
def Call.valueAt (i : ℕ) : Call → Option Str
  | .setValue index value => if index = i then some value else none
  | .sendResponse => none

/-- The value most recently set at an index, or the empty string. -/
def latest (calls : List Call) (i : ℕ) : Str :=
  ((calls.filterMap (Call.valueAt i)).getLast?).getD []

/-- The values that a response after these calls has to carry. -/
def snapshot (dataSize : ℕ) (calls : List Call) : List Str :=
  (List.range dataSize).map (latest calls)

/-- What every `SendResponse` has to carry, after the calls in `earlier`. -/
def responsesFrom (dataSize : ℕ) (earlier : List Call) : List Call → List (List Str)
  | [] => []
  | .setValue index value :: calls =>
      responsesFrom dataSize (earlier ++ [.setValue index value]) calls
  | .sendResponse :: calls =>
      snapshot dataSize earlier :: responsesFrom dataSize (earlier ++ [.sendResponse]) calls

/-- The fields that the responses of a sequence of calls have to carry, in their order. -/
def responses (dataSize : ℕ) (calls : List Call) : List (List Str) :=
  responsesFrom dataSize [] calls

/-- The messages in a stream, cut as `RunThread` does, and their fields, cut as `ForwardUp` does. -/
def decode (D : Delimiters) (stream : Str) : List (List Str) :=
  (cut D.delimiterMessage stream).1.map (splitMessage D)

/-- A value that passes the checks of `SetValue`. -/
def PlainValue (D : Delimiters) (value : Str) : Prop :=
  ¬ D.delimiterField <:+: value ∧ ¬ D.delimiterMessage <:+: value

theorem plainValue_nil : PlainValue D [] := by
  simp [PlainValue, D.field_ne, D.message_ne]

theorem Outbound.perform_cons (o : Outbound) (c : Call) (calls : List Call) :
    o.perform D (c :: calls) = (o.call D c).bind fun o => o.perform D calls :=
  rfl

/-- A list of plain values is a value vector that `SetValue` can build up index by index. -/
def setAll (index : ℕ) : List Str → List Call
  | [] => []
  | value :: values => .setValue index value :: setAll (index + 1) values

@[simp] theorem latest_nil (i : ℕ) : latest [] i = [] := rfl

@[simp] theorem latest_sendResponse (calls : List Call) (i : ℕ) :
    latest (calls ++ [.sendResponse]) i = latest calls i := by
  simp [latest, Call.valueAt]

theorem latest_setValue (calls : List Call) (index : ℕ) (value : Str) (i : ℕ) :
    latest (calls ++ [.setValue index value]) i = if index = i then value else latest calls i := by
  by_cases hi : index = i <;> simp [latest, Call.valueAt, hi]

@[simp] theorem length_snapshot (dataSize : ℕ) (calls : List Call) :
    (snapshot dataSize calls).length = dataSize := by
  simp [snapshot]

theorem snapshot_nil (dataSize : ℕ) : snapshot dataSize [] = List.replicate dataSize [] := by
  apply List.ext_getElem
  · simp
  · intro i _ _
    simp [snapshot]

theorem snapshot_sendResponse (dataSize : ℕ) (calls : List Call) :
    snapshot dataSize (calls ++ [.sendResponse]) = snapshot dataSize calls := by
  simp [snapshot]

/-- Setting a value changes the snapshot at its index only. -/
theorem snapshot_setValue (dataSize : ℕ) (calls : List Call) (index : ℕ) (value : Str) :
    snapshot dataSize (calls ++ [.setValue index value]) =
      (snapshot dataSize calls).set index value := by
  apply List.ext_getElem
  · simp
  · intro i hi _
    simp [snapshot, latest_setValue, List.getElem_set]

/-- The vector of the gateway shows the latest values, and all of them are plain. -/
structure Shows (D : Delimiters) (dataSize : ℕ) (calls : List Call) (o : Outbound) : Prop where
  data : o.data = snapshot dataSize calls
  plain : ∀ value ∈ snapshot dataSize calls, PlainValue D value

theorem shows_construct (dataSize : ℕ) : Shows D dataSize [] (.construct dataSize) where
  data := (snapshot_nil dataSize).symm
  plain := by
    intro value hv
    rw [snapshot_nil] at hv
    rw [List.eq_of_mem_replicate hv]
    exact plainValue_nil

/-- A `SetValue` that passes its checks sends nothing. -/
theorem Shows.of_setValue {dataSize : ℕ} {calls : List Call} {o o' : Outbound} {index : ℕ}
    {value : Str} (h : Shows D dataSize calls o) (hset : setValue D o index value = .ok o') :
    Shows D dataSize (calls ++ [.setValue index value]) o' ∧ o'.transmitted = o.transmitted := by
  obtain ⟨-, hfield, hmessage, rfl⟩ := setValue_eq_ok hset
  refine ⟨⟨?_, ?_⟩, rfl⟩
  · rw [snapshot_setValue, ← h.data]
  · intro v hv
    rw [snapshot_setValue] at hv
    obtain hv | rfl := List.mem_or_eq_of_mem_set hv
    · exact h.plain v hv
    · exact ⟨hfield, hmessage⟩

/-- A `SendResponse` transmits the latest values. -/
theorem Shows.of_sendResponse {dataSize : ℕ} {calls : List Call} {o : Outbound}
    (h : Shows D dataSize calls o) :
    Shows D dataSize (calls ++ [.sendResponse]) (sendResponse D o true) ∧
      (sendResponse D o true).transmitted =
        o.transmitted ++ responseMessage D (snapshot dataSize calls) := by
  refine ⟨⟨?_, ?_⟩, ?_⟩
  · rw [snapshot_sendResponse]
    exact h.data
  · rw [snapshot_sendResponse]
    exact h.plain
  · rw [← h.data]
    rfl

/-- The bytes transmitted are those of the responses, and every response has `dataSize` plain
values. -/
theorem Shows.of_perform {dataSize : ℕ} {earlier calls : List Call} {o o' : Outbound}
    (h : Shows D dataSize earlier o) (hperform : o.perform D calls = .ok o') :
    Shows D dataSize (earlier ++ calls) o' ∧
      o'.transmitted = o.transmitted ++
        ((responsesFrom dataSize earlier calls).map (responseMessage D)).flatten ∧
      ∀ values ∈ responsesFrom dataSize earlier calls,
        values.length = dataSize ∧ ∀ value ∈ values, PlainValue D value := by
  induction calls generalizing earlier o with
  | nil =>
      cases hperform
      simpa [responsesFrom] using h
  | cons c calls ih =>
      rw [Outbound.perform_cons] at hperform
      rw [List.append_cons]
      cases c with
      | setValue index value =>
          cases hset : setValue D o index value with
          | error e => simp [Outbound.call, hset, Except.bind] at hperform
          | ok o₁ =>
              obtain ⟨hshows, htransmitted⟩ := h.of_setValue hset
              simp only [Outbound.call, hset, Except.bind] at hperform
              rw [← htransmitted]
              exact ih hshows hperform
      | sendResponse =>
          obtain ⟨hshows, hsent⟩ := h.of_sendResponse
          obtain ⟨hend, htransmitted, hvalues⟩ := ih hshows hperform
          simp only [responsesFrom, List.forall_mem_cons, List.map_cons, List.flatten_cons]
          refine ⟨hend, ?_, ⟨length_snapshot _ _, h.plain⟩, hvalues⟩
          rw [htransmitted, hsent, List.append_assoc]

/-- The values that `SetValue` accepts are set one after the other. -/
theorem perform_setAll (done values rest : List Str) (transmitted : Str)
    (hlen : values.length = rest.length) (hplain : ∀ value ∈ values, PlainValue D value) :
    Outbound.perform D ⟨done ++ rest, transmitted⟩ (setAll done.length values) =
      .ok ⟨done ++ values, transmitted⟩ := by
  induction values generalizing done rest with
  | nil =>
      rw [List.length_nil] at hlen
      rw [List.length_eq_zero_iff.mp hlen.symm]
      rfl
  | cons value values ih =>
      cases rest with
      | nil => simp at hlen
      | cons r rest =>
          obtain ⟨⟨hfield, hmessage⟩, hplain⟩ := List.forall_mem_cons.mp hplain
          have hset : setValue D ⟨done ++ r :: rest, transmitted⟩ done.length value =
              .ok ⟨(done ++ [value]) ++ rest, transmitted⟩ := by
            simp [setValue, (find_eq_none_iff _ _).mpr hfield, (find_eq_none_iff _ _).mpr hmessage]
          have hrest := ih (done ++ [value]) rest (by simpa using hlen) hplain
          rw [List.length_append, List.length_singleton] at hrest
          rw [setAll, Outbound.perform_cons, Outbound.call, hset]
          simpa [Except.bind] using hrest

/-- Responses are read back exactly when each of them is unambiguous. -/
theorem decode_iff {vss : List (List Str)} (hne : ∀ vs ∈ vss, vs ≠ [])
    (hplain : ∀ vs ∈ vss, ∀ v ∈ vs, PlainValue D v) :
    decode D (vss.map (responseMessage D)).flatten = vss ↔
      ∀ vs ∈ vss, Unambiguous D.delimiterField D.delimiterMessage vs := by
  have hsplit : ∀ w, splitMessage D w = split D.delimiterField w := splitMessage_eq D
  have hstream : vss.map (responseMessage D) =
      (vss.map D.delimiterField.intercalate).map (· ++ D.delimiterMessage) := by
    rw [List.map_map]
    exact List.map_congr_left fun vs _ => responseMessage_eq D vs
  have hcut := cut_terminated_iff D.message_ne (vss.map D.delimiterField.intercalate)
  have hfields : ∀ vs ∈ vss, splitMessage D (D.delimiterField.intercalate vs) = vs ↔
      ∀ v ∈ vs.dropLast, Avoids D.delimiterField v D.delimiterField := by
    intro vs hvs
    rw [hsplit]
    exact split_intercalate_iff D.field_ne (hne vs hvs) fun v hv => (hplain vs hvs v hv).1
  rw [hstream]
  generalize hpieces : (cut D.delimiterMessage ((vss.map D.delimiterField.intercalate).map
    (· ++ D.delimiterMessage)).flatten).1 = pieces at hcut
  rw [decode, hpieces]
  constructor
  · intro h vs hvs
    have hglue : pieces = vss.map D.delimiterField.intercalate :=
      calc pieces = pieces.map (D.delimiterField.intercalate ∘ splitMessage D) := by
            symm
            apply List.map_id''
            intro w
            rw [Function.comp_apply, hsplit, intercalate_split D.field_ne]
        _ = (pieces.map (splitMessage D)).map D.delimiterField.intercalate := by
            rw [List.map_map]
        _ = vss.map D.delimiterField.intercalate := by rw [h]
    rw [hglue, List.map_map] at h
    refine ⟨(hfields vs hvs).mp ?_, hcut.mp hglue _ (List.mem_map_of_mem hvs)⟩
    exact List.map_inj_left.mp (h.trans (List.map_id vss).symm) vs hvs
  · intro h
    have hglue : pieces = vss.map D.delimiterField.intercalate := by
      apply hcut.mpr
      intro m hm
      obtain ⟨vs, hvs, rfl⟩ := List.mem_map.mp hm
      exact (h vs hvs).message
    rw [hglue, List.map_map]
    apply (List.map_congr_left _).trans (List.map_id vss)
    intro vs hvs
    exact (hfields vs hvs).mpr (h vs hvs).field

/-- The bytes of a sequence of calls are read back exactly when no response is ambiguous. -/
theorem decode_transmitted_iff {dataSize : ℕ} (hsize : 1 ≤ dataSize) {calls : List Call}
    {o : Outbound} (h : (Outbound.construct dataSize).perform D calls = .ok o) :
    decode D o.transmitted = responses dataSize calls ↔
      ∀ vs ∈ responses dataSize calls, Unambiguous D.delimiterField D.delimiterMessage vs := by
  obtain ⟨-, htransmitted, hvalues⟩ := (shows_construct dataSize).of_perform h
  have hne : ∀ vs ∈ responses dataSize calls, vs ≠ [] := by
    intro vs hvs
    rw [← List.length_pos_iff, (hvalues vs hvs).1]
    exact hsize
  rw [htransmitted]
  exact decode_iff hne fun vs hvs => (hvalues vs hvs).2

theorem responsesFrom_setAll (dataSize : ℕ) (earlier : List Call) (index : ℕ)
    (values : List Str) (calls : List Call) :
    responsesFrom dataSize earlier (setAll index values ++ calls) =
      responsesFrom dataSize (earlier ++ setAll index values) calls := by
  induction values generalizing earlier index with
  | nil => simp [setAll]
  | cons value values ih => simp [setAll, responsesFrom, ih]

/-- Every list of plain values is the only response of some calls. -/
theorem exists_responses {vs : List Str} (hplain : ∀ v ∈ vs, PlainValue D v) :
    ∃ calls o, (Outbound.construct vs.length).perform D calls = .ok o ∧
      responses vs.length calls = [vs] := by
  have hset : (Outbound.construct vs.length).perform D (setAll 0 vs) = .ok ⟨vs, []⟩ :=
    perform_setAll [] vs (List.replicate vs.length []) [] (by simp) hplain
  obtain ⟨hshows, -⟩ := (shows_construct vs.length).of_perform hset
  refine ⟨setAll 0 vs ++ [.sendResponse], sendResponse D ⟨vs, []⟩ true, ?_, ?_⟩
  · rw [Outbound.perform] at hset ⊢
    rw [List.foldlM_append, hset]
    rfl
  · rw [responses, responsesFrom_setAll, responsesFrom, responsesFrom, ← hshows.data]

/-- What the delimiter checks are for holds for the responses without an ambiguity, and for all
responses exactly when the delimiters are clear of each other. -/
theorem responses_decoded_iff (D : Delimiters) :
    (∀ dataSize, 1 ≤ dataSize → ∀ calls o,
      (Outbound.construct dataSize).perform D calls = .ok o →
        (decode D o.transmitted = responses dataSize calls ↔
          ∀ vs ∈ responses dataSize calls,
            Unambiguous D.delimiterField D.delimiterMessage vs)) ∧
    ((∀ dataSize, 1 ≤ dataSize → ∀ calls o,
      (Outbound.construct dataSize).perform D calls = .ok o →
        decode D o.transmitted = responses dataSize calls) ↔
      Clear D.delimiterField D.delimiterMessage) := by
  refine ⟨fun dataSize hsize calls o h => decode_transmitted_iff hsize h, ?_⟩
  rw [clear_iff D.field_ne D.message_ne D.not_infix]
  constructor
  · intro h vs hne hplain
    obtain ⟨calls, o, hperform, hresponses⟩ := exists_responses hplain
    have hsize : 1 ≤ vs.length := List.length_pos_iff.mpr hne
    apply (decode_transmitted_iff hsize hperform).mp (h vs.length hsize calls o hperform)
    rw [hresponses]
    exact List.mem_singleton_self vs
  · intro h dataSize hsize calls o hperform
    obtain ⟨-, -, hvalues⟩ := (shows_construct dataSize).of_perform hperform
    apply (decode_transmitted_iff hsize hperform).mpr
    intro vs hvs
    obtain ⟨hlength, hplain⟩ := hvalues vs hvs
    apply h vs _ hplain
    rw [← List.length_pos_iff, hlength]
    exact hsize

/-- With `","` between fields and `",\n"` after a message, a value that begins with a line break ends
the message early. -/
theorem response_misread :
    ∃ D o, checkDelimiters [','] [',', '\n'] = .ok D ∧
      (Outbound.construct 2).perform D [.setValue 1 ['\n'], .sendResponse] = .ok o ∧
      responses 2 [.setValue 1 ['\n'], .sendResponse] = [[[], ['\n']]] ∧
      decode D o.transmitted = [[[]], [[]]] ∧
      decode D o.transmitted ≠ responses 2 [.setValue 1 ['\n'], .sendResponse] := by
  refine ⟨⟨[','], [',', '\n'], by decide, by decide, by decide⟩,
    ⟨[[], ['\n']], [',', '\n', ',', '\n']⟩, rfl, rfl, rfl, ?_⟩
  decide +kernel

end Ns3Cosim.Gateway

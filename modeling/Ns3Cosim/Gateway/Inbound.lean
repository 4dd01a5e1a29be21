import Ns3Cosim.Words.Overlap
import Ns3Cosim.Gateway.Decimal
import Ns3Cosim.Gateway.HandedData

/-!
# What the gateway makes of a well-formed stream

A server encodes a list of timed messages. Whatever chunks `recv` returns, the
reader pushes one string for each of them, and `ForwardUp` reads its timestamp
and values from that string.
-/

namespace Ns3Cosim.Gateway

open Words Execution

variable {D : Delimiters}

/-- A message of the server, with the ranges of its header. -/
structure TimedMessage where
  seconds : ℤ
  nanoseconds : ℤ
  values : List Str
  secondsRange : -2 ^ 31 ≤ seconds ∧ seconds < 2 ^ 31
  nanosecondsRange : 0 ≤ nanoseconds ∧ nanoseconds < 2 ^ 32

/-- The timestamp of the header, in nanoseconds. -/
def TimedMessage.timestamp (m : TimedMessage) : ℤ :=
  m.seconds * nanosecondsPerSecond + m.nanoseconds

/-- The timestamp and the values, unless the message is the signal to terminate. -/
def TimedMessage.update? (m : TimedMessage) : Option (ℤ × List Str) :=
  if m.timestamp < 0 then none else some (m.timestamp, m.values)

/-- The fields of a message. -/
def TimedMessage.fields (m : TimedMessage) : List Str :=
  decimal m.seconds :: decimal m.nanoseconds :: m.values

/-- The bytes of a message before its delimiter. -/
def TimedMessage.body (D : Delimiters) (m : TimedMessage) : Str :=
  D.delimiterField.intercalate m.fields

/-- The bytes of a list of messages. -/
def encode (D : Delimiters) (messages : List TimedMessage) : Str :=
  (messages.map fun m => m.body D ++ D.delimiterMessage).flatten

/-- `RunThread` on an open connection whose `recv` calls return the given chunks: the messages that
it pushes until it waits for more, and the reader then. -/
def runThread (D : Delimiters) : ℕ → List Str → Reader → Option (List Str × Reader)
  | 0, _, _ => none
  | fuel + 1, chunks, r =>
      match r.pc, chunks with
      | .recv _, [] => some ([], r)
      | .recv _, chunk :: chunks =>
          (r.step D .connected (some (.bytes chunk))).bind fun p =>
            (runThread D fuel chunks p.1).map fun q => (p.2.pushed ++ q.1, q.2)
      | _, chunks =>
          (r.step D .connected none).bind fun p =>
            (runThread D fuel chunks p.1).map fun q => (p.2.pushed ++ q.1, q.2)

/-- How far the reader is from waiting at most. -/
def Reader.workload (r : Reader) (chunks : List Str) : ℕ :=
  6 * (r.unread ++ chunks.flatten).length + 2 * chunks.length +
    match r.pc with
    | .push _ => 6
    | .schedule => 5
    | .test => 4
    | .search _ => 3
    | _ => 2

/-- A reader that does not wait for the connection has a step, and it brings it nearer. -/
theorem Reader.exists_step {r : Reader} (hr : r.Running)
    (hpc : ∀ receivedData, r.pc ≠ .recv receivedData) (chunks : List Str) :
    ∃ r' effect, r.step D .connected none = some (r', effect) ∧ r'.Running ∧
      r'.workload chunks < r.workload chunks := by
  obtain ⟨pc, messageBuffer⟩ := r
  cases pc with
  | test =>
      refine ⟨⟨.search messageBuffer, messageBuffer⟩, .silent, rfl, by simp [Running], ?_⟩
      simp [workload, unread]
  | search receivedData =>
      cases hfind : find D.delimiterMessage receivedData with
      | none =>
          refine ⟨⟨.recv receivedData, messageBuffer⟩, .silent, ?_, by simp [Running], ?_⟩
          · simp [Reader.step, hfind]
          · simp [workload, unread]
      | some messageSize =>
          refine ⟨⟨.push (receivedData.take messageSize),
            receivedData.drop (messageSize + D.delimiterMessage.length)⟩, .silent, ?_,
            by simp [Running], ?_⟩
          · simp [Reader.step, hfind]
          · have hle := find_length_le hfind
            have hpos := List.length_pos_iff.mpr D.message_ne
            simp only [workload, unread, List.length_append, List.length_drop]
            omega
  | recv receivedData => exact absurd rfl (hpc receivedData)
  | failed => exact absurd rfl hr.1
  | push receivedMessage =>
      refine ⟨⟨.schedule, messageBuffer⟩, .push receivedMessage, rfl, by simp [Running], ?_⟩
      simp [workload, unread]
  | schedule =>
      refine ⟨⟨.test, messageBuffer⟩, .schedule .forwardUp, rfl, by simp [Running], ?_⟩
      simp [workload, unread]
  | exited => exact absurd rfl hr.2

/-- A chunk that `recv` returns is searched together with what was received before. -/
theorem Reader.step_bytes {r : Reader} {receivedData : Str} (hpc : r.pc = .recv receivedData)
    (state : GatewayState) (chunk : Str) : r.step D state (some (.bytes chunk)) =
      some ({ r with pc := .search (receivedData ++ chunk) }, .silent) := by
  simp [Reader.step, hpc]

/-- A chunk that is received brings the reader nearer to waiting for the last time. -/
theorem Reader.workload_bytes {r : Reader} {receivedData : Str} (hpc : r.pc = .recv receivedData)
    (chunk : Str) (chunks : List Str) :
    Reader.workload { r with pc := .search (receivedData ++ chunk) } chunks <
      r.workload (chunk :: chunks) := by
  simp only [Reader.workload, Reader.unread, hpc, List.flatten_cons, List.length_append,
    List.length_cons]
  omega

theorem runThread_recv {r : Reader} {receivedData : Str} (hpc : r.pc = .recv receivedData) (fuel : ℕ)
    (chunk : Str) (chunks : List Str) : runThread D (fuel + 1) (chunk :: chunks) r =
      runThread D fuel chunks { r with pc := .search (receivedData ++ chunk) } := by
  have hstep := Reader.step_bytes (D := D) hpc .connected chunk
  simp only [runThread, hpc, hstep, Option.bind_some, Effect.pushed, List.nil_append]
  exact Option.map_id'

/-- Any other step needs no chunk. -/
theorem runThread_step {r r' : Reader} {effect : Effect}
    (hpc : ∀ receivedData, r.pc ≠ .recv receivedData)
    (hstep : r.step D .connected none = some (r', effect)) (fuel : ℕ) (chunks : List Str) :
    runThread D (fuel + 1) chunks r =
      (runThread D fuel chunks r').map fun q => (effect.pushed ++ q.1, q.2) := by
  have hunfold : runThread D (fuel + 1) chunks r =
      (r.step D .connected none).bind fun p =>
        (runThread D fuel chunks p.1).map fun q => (p.2.pushed ++ q.1, q.2) := by
    obtain ⟨pc, buffer⟩ := r
    cases pc with
    | recv receivedData => exact absurd rfl (hpc receivedData)
    | test | search | failed | push | schedule | exited => rfl
  rw [hunfold, hstep, Option.bind_some]

theorem Reader.received_none (r : Reader) : r.received none = [] := by
  unfold Reader.received
  split
  · rename_i heq
    cases heq
  · rfl

/-- With enough fuel the reader pushes the messages of its framing and waits with the remainder,
however the stream is cut into chunks. -/
theorem runThread_eq {r : Reader} (hr : r.Running) (hs : Searched D r) (chunks : List Str)
    {fuel : ℕ} (hfuel : r.workload chunks < fuel) :
    ∃ messageBuffer, runThread D fuel chunks r =
      some ((r.framing D chunks.flatten).1,
        ⟨.recv (r.framing D chunks.flatten).2, messageBuffer⟩) := by
  induction fuel generalizing r chunks with
  | zero => exact absurd hfuel (Nat.not_lt_zero _)
  | succ fuel ih =>
      by_cases hpc : ∃ receivedData, r.pc = .recv receivedData
      · obtain ⟨receivedData, hpc⟩ := hpc
        cases chunks with
        | nil =>
            have hframing : r.framing D [] = ([], receivedData) := by
              simp [Reader.framing, Reader.unread, Reader.inFlight, hpc,
                cut_of_none (hs receivedData hpc)]
            refine ⟨r.messageBuffer, ?_⟩
            simp only [runThread, hpc, List.flatten_nil, hframing]
            rw [← hpc]
        | cons chunk chunks =>
            have hstep := Reader.step_bytes (D := D) hpc .connected chunk
            have hrun : Reader.Running { r with pc := .search (receivedData ++ chunk) } := by
              simp [Reader.Running]
            have hload := Reader.workload_bytes hpc chunk chunks
            have hframing := Reader.step_framing hstep hrun chunks.flatten
            simp only [Reader.received, hpc, Effect.pushed, List.nil_append] at hframing
            obtain ⟨messageBuffer, heq⟩ :=
              ih hrun (Reader.step_searched hstep) chunks (by omega)
            refine ⟨messageBuffer, ?_⟩
            rw [runThread_recv hpc, heq, List.flatten_cons, hframing]
      · have hpc : ∀ receivedData, r.pc ≠ .recv receivedData :=
          fun receivedData h => hpc ⟨receivedData, h⟩
        obtain ⟨r', effect, hstep, hrun, hlt⟩ := Reader.exists_step (D := D) hr hpc chunks
        have hframing := Reader.step_framing hstep hrun chunks.flatten
        rw [r.received_none, List.nil_append] at hframing
        obtain ⟨messageBuffer, heq⟩ := ih hrun (Reader.step_searched hstep) chunks (by omega)
        refine ⟨messageBuffer, ?_⟩
        rw [runThread_step hpc hstep, heq, Option.map_some, hframing]

/-- The delimiters can be told from each other and from the numbers of a header. -/
structure Distinct (D : Delimiters) : Prop where
  disjoint : D.delimiterField.Disjoint D.delimiterMessage
  field : Unbordered D.delimiterField
  message : Unbordered D.delimiterMessage
  fieldNumber : ∀ c ∈ D.delimiterField, c.isDigit = false ∧ c ≠ '-'
  messageNumber : ∀ c ∈ D.delimiterMessage, c.isDigit = false ∧ c ≠ '-'

/-- No value of the message contains a delimiter. -/
def TimedMessage.Plain (D : Delimiters) (m : TimedMessage) : Prop :=
  ∀ v ∈ m.values, ¬ D.delimiterField <:+: v ∧ ¬ D.delimiterMessage <:+: v

instance (m : TimedMessage) : Decidable (m.Plain D) :=
  inferInstanceAs (Decidable (∀ v ∈ m.values, _))

namespace TimedMessage

variable {m : TimedMessage}

theorem Plain.fields (h : m.Plain D) (hD : Distinct D) :
    ∀ v ∈ m.fields, ¬ D.delimiterField <:+: v ∧ ¬ D.delimiterMessage <:+: v := by
  intro v hv
  have hnumber : ∀ n, ¬ D.delimiterField <:+: decimal n ∧ ¬ D.delimiterMessage <:+: decimal n :=
    fun n => ⟨not_infix_decimal D.field_ne hD.fieldNumber n,
      not_infix_decimal D.message_ne hD.messageNumber n⟩
  obtain rfl | hv := List.mem_cons.mp hv
  · exact hnumber m.seconds
  · obtain rfl | hv := List.mem_cons.mp hv
    · exact hnumber m.nanoseconds
    · exact h v hv

theorem clear (hD : Distinct D) : Clear D.delimiterField D.delimiterMessage :=
  clear_of_disjoint D.field_ne hD.field hD.message hD.disjoint

/-- `ForwardUp` reads the timestamp and the values that the server wrote. -/
theorem readMessage_body (h : m.Plain D) (hD : Distinct D) :
    readMessage D (m.body D) = .ok (m.timestamp, m.values) := by
  have hsplit : splitMessage D (m.body D) = m.fields := by
    rw [splitMessage_eq]
    exact (clear hD).split_intercalate D.field_ne (by simp [TimedMessage.fields])
      fun v hv => (h.fields hD v hv).1
  have hseconds := stoi_decimal m.secondsRange
  have hnanoseconds : stol (decimal m.nanoseconds) = some m.nanoseconds :=
    stol_decimal (by have := m.nanosecondsRange; omega)
  unfold readMessage
  rw [hsplit]
  simp only [TimedMessage.fields, hseconds, hnanoseconds]
  rfl

/-- The reader cuts the stream of the server between its messages. -/
theorem cut_encode {messages : List TimedMessage} (h : ∀ m ∈ messages, m.Plain D)
    (hD : Distinct D) : cut D.delimiterMessage (encode D messages) =
      (messages.map (TimedMessage.body D), []) := by
  have hterminated : ∀ w ∈ messages.map (TimedMessage.body D),
      find D.delimiterMessage (w ++ D.delimiterMessage) = some w.length := by
    intro w hw
    obtain ⟨m, hm, rfl⟩ := List.mem_map.mp hw
    exact (clear hD).find_intercalate D.not_infix fun v hv => ((h m hm).fields hD v hv).2
  have hcut := cut_terminated D.message_ne hterminated []
  have hempty : cut D.delimiterMessage ([] : Str) = ([], []) := rfl
  rw [hempty, List.append_nil, List.append_nil, List.map_map] at hcut
  exact hcut

end TimedMessage

section Decoded

variable {messages : List TimedMessage}

theorem map_readMessage_body (h : ∀ m ∈ messages, m.Plain D) (hD : Distinct D) :
    (messages.map (TimedMessage.body D)).map (readMessage D) =
      messages.map fun m => .ok (m.timestamp, m.values) := by
  rw [List.map_map]
  exact List.map_congr_left fun m hm => TimedMessage.readMessage_body (h m hm) hD

/-- The updates of the strings in the queue are those that the server wrote. -/
theorem updates_map_body (h : ∀ m ∈ messages, m.Plain D) (hD : Distinct D) :
    updates D (messages.map (TimedMessage.body D)) = messages.filterMap TimedMessage.update? := by
  rw [updates, List.filterMap_map]
  refine List.filterMap_congr fun m hm => ?_
  simp only [Function.comp_apply, update?, TimedMessage.readMessage_body (h m hm) hD,
    TimedMessage.update?]

end Decoded

variable {ok : State → Label → Prop} {t₀ : ℤ} {s : State}

/-- A reader that waits for more has pushed all the messages of a stream that ends with one. -/
theorem Occurs.pushed_of_waiting (h : Occurs D ok t₀ s) {receivedData : Str}
    (hpc : s.reader.pc = .recv receivedData) (havailable : s.conn.available = [])
    {pieces : List Str} (hcut : cut D.delimiterMessage s.conn.sent = (pieces, [])) :
    s.pushed = pieces := by
  have hrun : s.reader.Running := by simp [Reader.Running, hpc]
  have hframed := h.framed.running hrun
  rw [hcut, havailable] at hframed
  have hframing : s.reader.framing D [] = ([], receivedData) := by
    simp [Reader.framing, Reader.unread, Reader.inFlight, hpc,
      cut_of_none (h.framed.searched receivedData hpc)]
  rw [hframing, List.append_nil] at hframed
  exact (congrArg Prod.fst hframed).symm

/-- The messages that `ForwardUp` has taken are the first of those that the server encoded. -/
theorem Occurs.processed_eq_take (h : Occurs D ok t₀ s) (hD : Distinct D)
    {messages : List TimedMessage} (hplain : ∀ m ∈ messages, m.Plain D)
    (hsent : s.conn.sent <+: encode D messages) :
    s.core.processed = (messages.take s.core.processed.length).map (TimedMessage.body D) := by
  have hcut := cut_isPrefix D.message_ne hsent
  rw [TimedMessage.cut_encode hplain hD] at hcut
  rw [List.map_take]
  exact List.prefix_iff_eq_take.mp (h.processed_isPrefix.trans hcut)

/-- An executed `ForwardUp` hands over what the server wrote into the next message. -/
theorem Occurs.forwardUp_decodes (h : Occurs D ok t₀ s) (hD : Distinct D)
    {messages : List TimedMessage} (hplain : ∀ m ∈ messages, m.Plain D)
    (hsent : s.conn.sent <+: encode D messages) {e : Event Kind} {sim : Simulator Kind}
    (hn : s.core.sim.next? = some (e, sim)) (hk : e.kind = .forwardUp) {s' : State}
    (hstep : step D s .event = some s') :
    ∃ m, messages[s.core.processed.length]? = some m ∧
      s'.core.processed = s.core.processed ++ [m.body D] ∧
      (s.core.advance sim).HandsOver s'.core m.timestamp m.values := by
  obtain ⟨message, hhead, hprocessed, hover⟩ := h.forwardUp_handsOver hn hk hstep
  have hcut : (cut D.delimiterMessage s.conn.sent).1 <+: messages.map (TimedMessage.body D) := by
    have hcut := cut_isPrefix D.message_ne hsent
    rwa [TimedMessage.cut_encode hplain hD] at hcut
  have hget : (messages.map (TimedMessage.body D))[s.core.processed.length]? = some message := by
    obtain ⟨rest, hrest⟩ := (h.next_isPrefix hhead).trans hcut
    rw [← hrest]
    simp
  rw [List.getElem?_map] at hget
  obtain ⟨m, hm, rfl⟩ := Option.map_eq_some_iff.mp hget
  have hread := TimedMessage.readMessage_body (hplain m (List.mem_of_getElem? hm)) hD
  exact ⟨m, hm, hprocessed, hover _ _ hread⟩

/-- What a gateway has made of these messages: its reference time, the time that it has granted, and
the values that its callbacks, run or pending, were given. -/
structure Core.Extracted (c : Core) (messages : List TimedMessage) : Prop where
  timeStart : c.timeStart = startOf (messages.filterMap TimedMessage.update?)
  timePause : c.timePause = pauseOf (messages.filterMap TimedMessage.update?)
  handed : c.fatal = none →
    (c.callbacks.map Callback.data).Perm ((messages.filterMap TimedMessage.update?).map Prod.snd)

theorem Occurs.extracted (h : Occurs D ok t₀ s) (hD : Distinct D) {messages : List TimedMessage}
    (hplain : ∀ m ∈ messages, m.Plain D) (hsent : s.conn.sent <+: encode D messages) :
    s.core.Extracted (messages.take s.core.processed.length) := by
  have hupdates := updates_map_body (D := D)
    (fun m hm => hplain m (List.mem_of_mem_take (i := s.core.processed.length) hm)) hD
  rw [← h.processed_eq_take hD hplain hsent] at hupdates
  constructor
  · rw [h.clock.1, hupdates]
  · rw [h.clock.2, hupdates]
  · intro hf
    have hhanded := h.balanced.handed
    rwa [Core.accepted_of_none hf, hupdates] at hhanded

/-- The gateway extracts exactly the messages that the server encoded, in their order and with their
timestamps and values. The reader thread pushes one string for each of them, whatever the chunks. In
every run each `ForwardUp` takes the next message and hands over its timestamp and its values; the
members and the callbacks of the gateway are those of the messages taken so far; and these are all
messages once the reader waits for more and no `ForwardUp` is left. -/
theorem inbound_decoded (hD : Distinct D) {messages : List TimedMessage}
    (h : ∀ m ∈ messages, m.Plain D) :
    (∀ chunks : List Str, chunks.flatten = encode D messages →
      ∃ bound, ∀ fuel, bound < fuel → ∃ pushed r,
        runThread D fuel chunks Reader.start = some (pushed, r) ∧ r.unread = [] ∧
        pushed.map (readMessage D) = messages.map fun m => .ok (m.timestamp, m.values)) ∧
    ∀ t₀ s, Occurs D always t₀ s → s.conn.sent <+: encode D messages →
      (∀ e sim s', s.core.sim.next? = some (e, sim) → e.kind = .forwardUp →
        step D s .event = some s' → ∃ m, messages[s.core.processed.length]? = some m ∧
          s'.core.processed = s.core.processed ++ [m.body D] ∧
          (s.core.advance sim).HandsOver s'.core m.timestamp m.values) ∧
      s.core.Extracted (messages.take s.core.processed.length) ∧
      (s.conn.sent = encode D messages → (∃ receivedData, s.reader.pc = .recv receivedData) →
        s.conn.available = [] → s.scheduled = 0 → s.core.processed.length = messages.length) := by
  have hcut := TimedMessage.cut_encode h hD
  have hread := map_readMessage_body h hD
  refine ⟨fun chunks hchunks => ?_, fun t₀ s hs hsent => ⟨fun e sim s' hn hk hstep => ?_, ?_, ?_⟩⟩
  · refine ⟨Reader.start.workload chunks, fun fuel hfuel => ?_⟩
    obtain ⟨messageBuffer, hrun⟩ := runThread_eq (D := D) (r := Reader.start)
      ⟨by simp [Reader.start], by simp [Reader.start]⟩ (fun receivedData hpc => by
        simp [Reader.start] at hpc) chunks hfuel
    rw [Reader.framing_start, hchunks, hcut] at hrun
    exact ⟨_, _, hrun, rfl, hread⟩
  · exact hs.forwardUp_decodes hD h hsent hn hk hstep
  · exact hs.extracted hD h hsent
  · rintro hsent ⟨receivedData, hpc⟩ havailable hscheduled
    have hpushed := hs.pushed_of_waiting hpc havailable (hsent.symm ▸ hcut)
    have hempty : s.core.messageQueue = [] := by
      have hcount := hs.handoff.count
      simp only [hscheduled, Reader.betweenPushAndSchedule, hpc, reduceCtorEq, if_false] at hcount
      exact List.length_eq_zero_iff.mp hcount
    have hhistory := hs.handoff.history
    rw [hempty, List.append_nil, hpushed] at hhistory
    rw [hhistory, List.length_map]

/-- A message with values, the last of them empty, and a signal to terminate, in three chunks that
cut delimiters apart; and a run on two messages with one value each, in which the second `ForwardUp`
hands over the second message. -/
theorem inbound_decoded_default :
    (∃ bound, ∀ fuel, bound < fuel → ∃ pushed r,
      runThread defaultDelimiters fuel
        [['1', ' ', '5', ' ', 'a', ' ', '\r'], ['\n', '-', '1', ' '], ['0', '\r', '\n']]
        Reader.start = some (pushed, r) ∧ r.unread = [] ∧
      pushed.map (readMessage defaultDelimiters) =
        [.ok (nanosecondsPerSecond + 5, [['a'], []]), .ok (-nanosecondsPerSecond, [])]) ∧
    ∃ s s' e sim, State.after defaultDelimiters always 5 1 valuesRun = some s ∧
      s.core.sim.next? = some (e, sim) ∧ step defaultDelimiters s .event = some s' ∧
      (s.core.advance sim).HandsOver s'.core (6 * nanosecondsPerSecond) [['b']] ∧
      s'.core.timeStart = 0 ∧ s'.core.timePause = 6 * nanosecondsPerSecond ∧
      (s'.core.callbacks.map Callback.data).Perm [[['a']], [['b']]] := by
  have hD : Distinct defaultDelimiters :=
    ⟨by simp [defaultDelimiters], by decide, by decide, by simp [defaultDelimiters, Char.isDigit],
      by simp [defaultDelimiters, Char.isDigit]⟩
  constructor
  · let first : TimedMessage := ⟨1, 5, [['a'], []], by decide, by decide⟩
    let last : TimedMessage := ⟨-1, 0, [], by decide, by decide⟩
    have hplain : ∀ m ∈ [first, last], m.Plain defaultDelimiters := by decide +kernel
    exact (inbound_decoded hD hplain).1 _ (by decide +kernel)
  · let first : TimedMessage := ⟨0, 0, [['a']], by decide, by decide⟩
    let second : TimedMessage := ⟨6, 0, [['b']], by decide, by decide⟩
    have hplain : ∀ m ∈ [first, second], m.Plain defaultDelimiters := by decide +kernel
    have hrun : (State.after defaultDelimiters always 5 1 valuesRun).any (fun s =>
        s.conn.sent = encode defaultDelimiters [first, second] ∧ s.core.processed.length = 1 ∧
        (s.core.sim.next?.any fun p => p.1.kind = .forwardUp) = true ∧
        ((step defaultDelimiters s .event).any fun s' =>
          s'.conn.sent = encode defaultDelimiters [first, second] ∧
          s'.core.processed.length = 2 ∧ s'.core.fatal = none) = true) := by
      decide +kernel
    obtain ⟨s, hs, hp⟩ := (Option.any_eq_true _ _).mp hrun
    obtain ⟨hsent, hone, hnext, hstep⟩ := of_decide_eq_true hp
    obtain ⟨⟨e, sim⟩, hn, hk⟩ := (Option.any_eq_true _ _).mp hnext
    obtain ⟨s', hs', hp'⟩ := (Option.any_eq_true _ _).mp hstep
    obtain ⟨hsent', htwo, hf⟩ := of_decide_eq_true hp'
    have hoccurs : Occurs defaultDelimiters always 5 s := .of_after hs
    have hdecoded := (inbound_decoded hD hplain).2
    obtain ⟨hforward, -, -⟩ := hdecoded 5 s hoccurs (hsent ▸ List.prefix_rfl)
    obtain ⟨-, hextracted, -⟩ := hdecoded 5 s' (hoccurs.next trivial hs') (hsent' ▸ List.prefix_rfl)
    obtain ⟨m, hm, -, hover⟩ := hforward e sim s' hn (of_decide_eq_true hk) hs'
    rw [hone] at hm
    cases hm
    rw [htwo] at hextracted
    exact ⟨s, s', e, sim, hs, hn, hs', hover, hextracted.timeStart, hextracted.timePause,
      hextracted.handed hf⟩

end Ns3Cosim.Gateway

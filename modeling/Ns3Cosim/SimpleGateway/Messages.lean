import Ns3Cosim.Gateway.Inbound
import Ns3Cosim.Gateway.Ledger
import Ns3Cosim.SimpleGateway.Server

/-!
# The messages of the server

A message of the server is a header and seven values for each node, with the
default delimiters. The reader thread cuts the stream of the server between its
messages, and `ForwardUp` reads from each of them the time and the values that
the server wrote, as long as the time fits into the `int` of `std::stoi`.

-/

namespace Ns3Cosim.SimpleGateway

open Words Gateway

/-- The values behind the header of a message. -/
def roundFields (nodes : List ServerNode) : List Str :=
  ((roundData nodes).map VehicleData.fields).flatten

/-- A message without its delimiter. -/
def roundBody (timeNow : UInt32) (nodes : List ServerNode) : Str :=
  [' '].intercalate (decimal timeNow.toNat :: decimal 0 :: roundFields nodes)

/-- The signal to terminate without its delimiter. -/
def terminateBody : Str := [' '].intercalate [decimal (-1), decimal 0]

/-- The default delimiters can be told from each other and from numbers. -/
theorem distinct_default : Distinct defaultDelimiters where
  disjoint := by simp [defaultDelimiters]
  field := by decide
  message := by decide
  fieldNumber := by simp [defaultDelimiters, Char.isDigit]
  messageNumber := by simp [defaultDelimiters, Char.isDigit]

section Format

/-- A list of words, each with a delimiter before it, behind a first one. -/
theorem intercalate_cons_eq (d w : Str) (ws : List Str) :
    d.intercalate (w :: ws) = w ++ (ws.map (d ++ ·)).flatten := by
  induction ws generalizing w with
  | nil => simp
  | cons v vs ih =>
      rw [List.intercalate_cons_cons, ih]
      simp

/-- The loop of the server appends the values of the nodes, each behind a space. -/
theorem appendNodes_eq (n : ℕ) (text : Str) (nodes : List ServerNode) :
    appendNodes n text nodes = text ++ ((((nodes.mapIdx fun i node => node.data (n + i)).map
      VehicleData.fields).flatten).map ([' '] ++ ·)).flatten := by
  induction nodes generalizing n text with
  | nil => simp [appendNodes]
  | cons node nodes ih =>
      have hzero : decimal 0 = ['0'] := rfl
      have hshift : (fun i node => ServerNode.data (n + (i + 1)) node) =
          fun i node => ServerNode.data (n + 1 + i) node := by
        ext i node : 2
        rw [Nat.add_comm i 1, Nat.add_assoc]
      rw [appendNodes, ih, List.mapIdx_cons, hshift]
      simp only [Nat.add_zero, List.map_cons, List.flatten_cons, VehicleData.fields,
        ServerNode.data, List.map_nil, List.cons_append, List.nil_append, List.append_assoc, hzero]

theorem message_eq (timeNow : UInt32) (nodes : List ServerNode) :
    message timeNow nodes = roundBody timeNow nodes ++ defaultDelimiters.delimiterMessage := by
  have hzero : decimal 0 = ['0'] := rfl
  rw [message, appendNodes_eq, roundBody, intercalate_cons_eq]
  simp only [Nat.zero_add, roundFields, roundData, List.map_cons, List.flatten_cons, hzero,
    List.append_assoc, List.cons_append, List.nil_append, defaultDelimiters]

theorem terminateMessage_eq :
    terminateMessage = terminateBody ++ defaultDelimiters.delimiterMessage := rfl

theorem length_roundData (nodes : List ServerNode) : (roundData nodes).length = nodes.length :=
  List.length_mapIdx

/-- The coordinates and velocities of the server are of 16 bits. -/
theorem roundData_inRange {nodes : List ServerNode} (hsize : nodes.length < 2 ^ 31)
    {d : VehicleData} (hd : d ∈ roundData nodes) : d.InRange := by
  obtain ⟨n, hn, rfl⟩ := List.mem_mapIdx.mp hd
  have hword : ∀ w : UInt16, -2 ^ 31 ≤ (w.toNat : ℤ) ∧ (w.toNat : ℤ) < 2 ^ 31 := by
    intro w
    have hlt := w.toNat_lt
    omega
  have hindex : -2 ^ 31 ≤ (n : ℤ) ∧ (n : ℤ) < 2 ^ 31 := by omega
  simp only [VehicleData.InRange, ServerNode.data, List.forall_mem_cons]
  exact ⟨hword _, hindex, by decide, hword _, by decide, by decide, hword _, by simp⟩

/-- No delimiter occurs in a number. -/
theorem not_infix_fields {v : Str} (h : ∃ n, v = decimal n) :
    ¬ defaultDelimiters.delimiterField <:+: v ∧ ¬ defaultDelimiters.delimiterMessage <:+: v := by
  obtain ⟨n, rfl⟩ := h
  exact ⟨not_infix_decimal defaultDelimiters.field_ne distinct_default.fieldNumber n,
    not_infix_decimal defaultDelimiters.message_ne distinct_default.messageNumber n⟩

theorem exists_decimal_of_mem {nodes : List ServerNode} {v : Str} (hv : v ∈ roundFields nodes) :
    ∃ n, v = decimal n := by
  obtain ⟨fields, hfields, hv⟩ := List.mem_flatten.mp hv
  obtain ⟨d, -, rfl⟩ := List.mem_map.mp hfields
  obtain ⟨n, -, rfl⟩ := List.mem_map.mp hv
  exact ⟨n, rfl⟩

theorem exists_decimal_of_mem_round (timeNow : UInt32) (nodes : List ServerNode) :
    ∀ v ∈ decimal timeNow.toNat :: decimal 0 :: roundFields nodes, ∃ n, v = decimal n := by
  simp only [List.forall_mem_cons]
  exact ⟨⟨_, rfl⟩, ⟨_, rfl⟩, fun v hv => exists_decimal_of_mem hv⟩

end Format

section Read

/-- `ForwardUp` takes a message of numbers apart where the server put it together. -/
theorem splitMessage_numbers {fields : List Str} (hne : fields ≠ [])
    (h : ∀ v ∈ fields, ∃ n, v = decimal n) :
    splitMessage defaultDelimiters ([' '].intercalate fields) = fields := by
  rw [splitMessage_eq]
  exact (TimedMessage.clear distinct_default).split_intercalate defaultDelimiters.field_ne hne
    fun v hv => (not_infix_fields (h v hv)).1

/-- A body of numbers ends at the first message delimiter after it. -/
theorem find_numbers {fields : List Str} (h : ∀ v ∈ fields, ∃ n, v = decimal n) :
    find defaultDelimiters.delimiterMessage
      ([' '].intercalate fields ++ defaultDelimiters.delimiterMessage) =
        some ([' '].intercalate fields).length :=
  (TimedMessage.clear distinct_default).find_intercalate defaultDelimiters.not_infix
    fun v hv => (not_infix_fields (h v hv)).2

/-- The time and the values that a message of the server says. -/
theorem readMessage_roundBody {timeNow : UInt32} (ht : timeNow.toNat < 2 ^ 31)
    (nodes : List ServerNode) : readMessage defaultDelimiters (roundBody timeNow nodes) =
      .ok (timeNow.toNat * nanosecondsPerSecond, roundFields nodes) := by
  have hsplit := splitMessage_numbers (by simp) (exists_decimal_of_mem_round timeNow nodes)
  have hseconds : stoi (decimal timeNow.toNat) = some (timeNow.toNat : ℤ) :=
    stoi_decimal (by omega)
  have hnanoseconds : stol (decimal 0) = some 0 := stol_decimal (by decide)
  simp only [readMessage, roundBody, hsplit, hseconds, hnanoseconds, Int.add_zero]

/-- A time of 2^31 seconds or more is an invalid header. -/
theorem readMessage_roundBody_of_le {timeNow : UInt32} (ht : 2 ^ 31 ≤ timeNow.toNat)
    (nodes : List ServerNode) :
    readMessage defaultDelimiters (roundBody timeNow nodes) = .error .invalidHeader := by
  have hsplit := splitMessage_numbers (by simp) (exists_decimal_of_mem_round timeNow nodes)
  have hseconds : stoi (decimal timeNow.toNat) = none := by
    rw [stoi, strtol_decimal, Option.filter_some, if_neg]
    simp only [decide_eq_true_eq, not_and]
    omega
  simp only [readMessage, roundBody, hsplit, hseconds]

theorem readMessage_terminateBody :
    readMessage defaultDelimiters terminateBody = .ok (-nanosecondsPerSecond, []) := by
  have hsplit : splitMessage defaultDelimiters terminateBody = [decimal (-1), decimal 0] :=
    splitMessage_numbers (by simp) (by simp)
  have hseconds : stoi (decimal (-1)) = some (-1) := stoi_decimal (by decide)
  have hnanoseconds : stol (decimal 0) = some 0 := stol_decimal (by decide)
  simp only [readMessage, hsplit, hseconds, hnanoseconds]
  rfl

end Read

/-- The bodies of all messages that the server has sent, the signal to terminate among them. -/
def bodies (O : Options) (rounds : List (List ServerNode)) (terminated : Bool) : List Str :=
  (rounds.mapIdx fun i nodes => roundBody (timeNow O i) nodes) ++
    if terminated then [terminateBody] else []

/-- Every byte that the server sends. -/
def stream (O : Options) (rounds : List (List ServerNode)) (terminated : Bool) : Str :=
  ((bodies O rounds terminated).map (· ++ defaultDelimiters.delimiterMessage)).flatten

/-- What the messages of the server say about the vehicles, with the times in nanoseconds. -/
def roundUpdates (O : Options) (rounds : List (List ServerNode)) : List (ℤ × List Str) :=
  rounds.mapIdx fun i nodes => ((timeNow O i).toNat * nanosecondsPerSecond, roundFields nodes)

/-- The callback that a message of the server calls for: simulation time is the time since the
first message. -/
def roundCallback (O : Options) (i : ℕ) (nodes : List ServerNode) : Callback where
  name := if i = 0 then .doInitialize else .doUpdate
  data := roundFields nodes
  time := O.timeDelta.toNat * i * nanosecondsPerSecond

/-- The times of all iterations fit into the header. -/
def Options.Fits (O : Options) : Prop :=
  ∀ i < O.iterations.toNat, O.timeStart.toNat + O.timeDelta.toNat * i < 2 ^ 31

section Stream

variable {O : Options} {rounds : List (List ServerNode)} {terminated : Bool}

theorem timeNow_toNat (hfits : O.Fits) {i : ℕ} (hi : i < O.iterations.toNat) :
    (timeNow O i).toNat = O.timeStart.toNat + O.timeDelta.toNat * i := by
  have hlt := hfits i hi
  have hiter := O.iterations.toNat_lt
  have hindex : (UInt32.ofNat i).toNat = i := UInt32.toNat_ofNat_of_lt' (hi.trans hiter)
  rw [timeNow, UInt32.toNat_add, UInt32.toNat_mul, hindex, Nat.add_mod_mod]
  exact Nat.mod_eq_of_lt (by omega)

/-- The reader thread cuts the stream between the messages of the server. -/
theorem cut_stream (O : Options) (rounds : List (List ServerNode)) (terminated : Bool) :
    cut defaultDelimiters.delimiterMessage (stream O rounds terminated) =
      (bodies O rounds terminated, []) := by
  have hbodies : ∀ body ∈ bodies O rounds terminated,
      find defaultDelimiters.delimiterMessage (body ++ defaultDelimiters.delimiterMessage) =
        some body.length := by
    intro body hbody
    obtain hbody | hbody := List.mem_append.mp hbody
    · obtain ⟨i, hi, rfl⟩ := List.mem_mapIdx.mp hbody
      exact find_numbers (exists_decimal_of_mem_round _ _)
    · split at hbody
      · obtain rfl := List.mem_singleton.mp hbody
        exact find_numbers (by simp)
      · cases hbody
  have hcut := cut_terminated defaultDelimiters.message_ne hbodies []
  have hempty : cut defaultDelimiters.delimiterMessage ([] : Str) = ([], []) := rfl
  rw [hempty, List.append_nil, List.append_nil] at hcut
  exact hcut

/-- What `ForwardUp` reads from the messages of the server. -/
theorem updates_bodies (hfits : O.Fits) (hrounds : rounds.length ≤ O.iterations.toNat) :
    updates defaultDelimiters (bodies O rounds terminated) = roundUpdates O rounds := by
  have hterminate : updates defaultDelimiters (if terminated then [terminateBody] else []) = [] := by
    cases terminated with
    | false => rfl
    | true =>
        have hnone : update? defaultDelimiters terminateBody = none :=
          update?_of_neg readMessage_terminateBody (by decide)
        simp [updates, hnone]
  have hround : ∀ i (hi : i < rounds.length),
      update? defaultDelimiters (roundBody (timeNow O i) rounds[i]) =
        some ((timeNow O i).toNat * nanosecondsPerSecond, roundFields rounds[i]) := by
    intro i hi
    have ht : (timeNow O i).toNat < 2 ^ 31 := by
      rw [timeNow_toNat hfits (by omega)]
      exact hfits i (by omega)
    refine update?_of_nonneg (readMessage_roundBody ht _) ?_
    exact Int.mul_nonneg (Int.natCast_nonneg _) (by decide)
  have hall : (rounds.mapIdx fun i nodes => roundBody (timeNow O i) nodes).map
      (update? defaultDelimiters) = (roundUpdates O rounds).map some := by
    apply List.ext_getElem (by simp [roundUpdates])
    intro i hi _
    simp only [List.getElem_map, List.getElem_mapIdx, roundUpdates]
    exact hround i (by simpa using hi)
  have hread : updates defaultDelimiters
      (rounds.mapIdx fun i nodes => roundBody (timeNow O i) nodes) = roundUpdates O rounds := by
    calc updates defaultDelimiters (rounds.mapIdx fun i nodes => roundBody (timeNow O i) nodes)
        = ((rounds.mapIdx fun i nodes => roundBody (timeNow O i) nodes).map
            (update? defaultDelimiters)).filterMap id := by rw [List.filterMap_map]; rfl
      _ = ((roundUpdates O rounds).map some).filterMap id := by rw [hall]
      _ = (roundUpdates O rounds).filterMap some := by rw [List.filterMap_map]; rfl
      _ = roundUpdates O rounds := List.filterMap_some
  rw [bodies, updates, List.filterMap_append, ← updates, ← updates, hread, hterminate,
    List.append_nil]

/-- The times of the server never decrease. -/
theorem roundUpdates_neverDecreasing (hfits : O.Fits) (hrounds : rounds.length ≤ O.iterations.toNat) :
    NeverDecreasing (roundUpdates O rounds) := by
  apply List.pairwise_iff_getElem.mpr
  intro i j hi hj hij
  simp only [roundUpdates, List.length_mapIdx] at hi hj
  simp only [roundUpdates, List.getElem_mapIdx, timeNow_toNat hfits (hi.trans_le hrounds),
    timeNow_toNat hfits (hj.trans_le hrounds), nanosecondsPerSecond]
  have hmul : O.timeDelta.toNat * i ≤ O.timeDelta.toNat * j := Nat.mul_le_mul_left _ hij.le
  omega

/-- The callbacks that the messages of the server call for. -/
theorem expectedLog_roundUpdates (hfits : O.Fits) (hrounds : rounds.length ≤ O.iterations.toNat) :
    expectedLog 0 (roundUpdates O rounds) = rounds.mapIdx (roundCallback O) := by
  cases rounds with
  | nil => rfl
  | cons first rest =>
      rw [List.length_cons] at hrounds
      have hstart : (timeNow O 0).toNat = O.timeStart.toNat := by
        rw [timeNow_toNat hfits (by omega), Nat.mul_zero, Nat.add_zero]
      have hfirst : roundCallback O 0 first = ⟨.doInitialize, roundFields first, 0⟩ := by
        simp [roundCallback]
      have hlater : ∀ i < rest.length, ∀ nodes, roundCallback O (i + 1) nodes =
          ⟨.doUpdate, roundFields nodes, (timeNow O (i + 1)).toNat * nanosecondsPerSecond -
            (timeNow O 0).toNat * nanosecondsPerSecond⟩ := by
        intro i hi nodes
        rw [timeNow_toNat hfits (by omega), hstart, roundCallback, if_neg (Nat.succ_ne_zero i),
          ← Int.sub_mul]
        push_cast
        congr 2
        omega
      rw [roundUpdates, List.mapIdx_cons, List.mapIdx_cons, hfirst, expectedLog]
      apply congrArg
      apply List.ext_getElem (by simp)
      intro i hi _
      rw [List.length_map, List.length_mapIdx] at hi
      rw [List.getElem_map, List.getElem_mapIdx, List.getElem_mapIdx, hlater i hi]

/-- One more message. -/
theorem stream_append (O : Options) (rounds : List (List ServerNode)) (nodes : List ServerNode) :
    stream O (rounds ++ [nodes]) false =
      stream O rounds false ++ message (timeNow O rounds.length) nodes := by
  simp [stream, bodies, message_eq]

theorem stream_terminate (O : Options) (rounds : List (List ServerNode)) :
    stream O rounds true = stream O rounds false ++ terminateMessage := by
  simp [stream, bodies, terminateMessage_eq]

end Stream

end Ns3Cosim.SimpleGateway

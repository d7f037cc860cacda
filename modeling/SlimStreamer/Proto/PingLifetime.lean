import SlimStreamer.Proto.CommandLoop

/-!
# The pings of sessions that are destroyed

A ping that `onSTMt` posts captures its session, and the destructor of a session cancels its timer
only: the pings stay in the queue.

* `step_handlers`, `step_uses` — the queue of the handlers, and what is used when one runs;
* `pings_alive_iff` — no ping outlives its session if and only if every connection that closes
  does so after the pings of its session;
* `orphan_used` — a ping that has outlived its session runs as soon as those before it have.
-/

namespace SlimStreamer

open GuardedExecution KeyedList

namespace Streamer

/-- Only opening and closing change which sessions exist. -/
theorem addresses_same {t : Streamer} (ht : Registered t) {e : Stimulus}
    (hopen : ∀ connection environment, e ≠ .slimProtoOpen connection environment)
    (hclose : ∀ connection, e ≠ .slimProtoClose connection) :
    addresses (step t e).commandSessions = addresses t.commandSessions := by
  cases e with
  | start environment => exact (start_registry environment t).addresses
  | stop environment => exact (stop_registry environment t).addresses
  | slimProtoOpen connection environment => exact absurd rfl (hopen connection environment)
  | slimProtoClose connection => exact absurd rfl (hclose connection)
  | chunk environment answers chunk =>
    exact (consumeChunk_registry environment answers chunk ht).addresses
  | _ => exact (step_forSession rfl t).registry.addresses

end Streamer

namespace CommandLoop

variable {l : CommandLoop}

/-- The addresses of the sessions that exist. -/
def addresses (l : CommandLoop) : List ℕ := Streamer.addresses l.streamer.commandSessions

def Event.isHandler : Event → Bool
  | .handler _ => true
  | _ => false

/-- No ping of a session is left in the queue when its connection closes.  The read that fails
was started after they were posted. -/
def ClosesQuietly (l : CommandLoop) : Event → Prop
  | .closed connection => postedPings connection l.streamer = []
  | _ => True

instance (l : CommandLoop) : DecidablePred (ClosesQuietly l)
  | .closed connection => inferInstanceAs (Decidable (postedPings connection l.streamer = []))
  | .accepted _ _ _ | .received _ _ _ _ | .stopServer | .pingTimer _ _ | .streamer _
  | .handler _ => isTrue trivial

/-- Pings have run only for sessions that existed, and none is left of a session that does not. -/
structure PingsAlive (l : CommandLoop) : Prop where
  posted : ∀ address index, .ping address index ∈ l.handlers → address ∈ l.addresses
  used : ∀ use ∈ l.sessionUses, use.existed = true

/-! ### The sessions that exist -/

theorem connectionOf_isSome (address : ℕ) (l : CommandLoop) :
    (connectionOf address l.streamer).isSome = true ↔ address ∈ l.addresses := by
  cases hconnection : connectionOf address l.streamer with
  | none => exact iff_of_false Bool.false_ne_true (connectionOf_none hconnection)
  | some connection =>
    obtain ⟨e, he, -, haddress⟩ := connectionOf_some hconnection
    exact iff_of_true rfl (List.mem_map.mpr ⟨e, he, haddress⟩)

/-- Other events neither open nor close a session. -/
theorem callOf_inPlace {e : Event} (he : l.enabled e)
    (haccepted : ∀ connection error environment, e ≠ .accepted connection error environment)
    (hclosed : ∀ connection, e ≠ .closed connection) {call : Streamer.Stimulus}
    (hcall : l.callOf e = some call) :
    (∀ connection environment, call ≠ .slimProtoOpen connection environment) ∧
      ∀ connection, call ≠ .slimProtoClose connection := by
  cases e with
  | accepted connection error environment => exact absurd rfl (haccepted _ _ _)
  | closed connection => exact absurd rfl (hclosed connection)
  | stopServer => cases hcall
  | streamer stimulus =>
    obtain rfl := Option.some.inj hcall
    constructor
    · rintro connection environment rfl
      exact Bool.noConfusion he.1
    · rintro connection rfl
      exact Bool.noConfusion he.1
  | handler environment =>
    rw [callOf] at hcall
    split at hcall
    · obtain ⟨connection, -, rfl⟩ := Option.map_eq_some_iff.mp hcall
      simp
    · cases hcall
  | _ =>
    obtain rfl := Option.some.inj hcall
    simp

theorem addresses_inPlace (hl : Wired l) {e : Event} (he : l.enabled e)
    (haccepted : ∀ connection error environment, e ≠ .accepted connection error environment)
    (hclosed : ∀ connection, e ≠ .closed connection) : (l.step e).addresses = l.addresses := by
  rw [addresses, step_streamer]
  cases hcall : l.callOf e with
  | none => rfl
  | some call =>
    obtain ⟨hopen, hclose⟩ := callOf_inPlace he haccepted hclosed hcall
    exact Streamer.addresses_same hl.registered hopen hclose

/-- A session is created at a new address. -/
theorem addresses_accepted (hl : Wired l) {connection : ℕ} {error : Bool}
    {environment : Environment} (he : l.enabled (.accepted connection error environment)) :
    (l.step (.accepted connection error environment)).addresses =
      l.addresses ++ if error then [] else [l.streamer.nextID + 1] := by
  cases error with
  | true => exact (List.append_nil _).symm
  | false =>
    obtain ⟨session, hsessions, haddress, -⟩ := Streamer.open_commandSessions
      (hl.call_enabled he _ rfl) environment
    show Streamer.addresses (l.streamer.onSlimProtoOpen connection environment).commandSessions = _
    rw [hsessions, Streamer.addresses, List.map_append, List.map_singleton, haddress]
    rfl

/-- The session of a connection that closes is destroyed. -/
theorem addresses_closed (hl : Wired l) {connection : ℕ} {s : CommandSession}
    (hs : (connection, s) ∈ l.streamer.commandSessions) :
    (l.step (.closed connection)).addresses =
      l.addresses.filter fun address => address != s.address := by
  show Streamer.addresses (l.streamer.onSlimProtoClose connection).commandSessions = _
  rw [Streamer.close_commandSessions,
    Streamer.addresses_eraseSession hl.registered.connections hl.registered.addresses hs]
  rfl

/-- A session exists until its connection closes. -/
theorem mem_addresses_step (hl : Wired l) {e : Event} (he : l.enabled e)
    (hclosed : ∀ connection, e ≠ .closed connection) {address : ℕ}
    (ha : address ∈ l.addresses) : address ∈ (l.step e).addresses := by
  cases e with
  | accepted connection error environment =>
    rw [addresses_accepted hl he]
    exact List.mem_append_left _ ha
  | closed connection => exact absurd rfl (hclosed connection)
  | _ =>
    rw [addresses_inPlace hl he (by simp) (by simp)]
    exact ha

/-- An address is not used again. -/
theorem not_mem_addresses_step (hl : Wired l) {e : Event} (he : l.enabled e) {address : ℕ}
    (hle : address ≤ l.streamer.nextID) (ha : address ∉ l.addresses) :
    address ∉ (l.step e).addresses := by
  cases e with
  | accepted connection error environment =>
    rw [addresses_accepted hl he, List.mem_append]
    rintro (hmem | hmem)
    · exact ha hmem
    · cases error with
      | true => exact List.not_mem_nil hmem
      | false =>
        have heq : address = l.streamer.nextID + 1 := List.mem_singleton.mp hmem
        omega
  | closed connection =>
    obtain ⟨s, hs⟩ := hl.session he
    rw [addresses_closed hl hs]
    intro hmem
    exact ha (List.mem_of_mem_filter hmem)
  | _ =>
    rw [addresses_inPlace hl he (by simp) (by simp)]
    exact ha

/-! ### The queue -/

/-- **A step of the queue**: a handler takes the first one, and only sessions that exist post
pings. -/
theorem step_handlers (hl : Wired l) {e : Event} (he : l.enabled e) : ∃ posted,
    (∀ address index, .ping address index ∈ posted → address ∈ l.addresses) ∧
      (l.step e).handlers = (if e.isHandler then l.handlers.tail else l.handlers) ++ posted := by
  have hnone : ∀ address index, Handler.ping address index ∈ [] → address ∈ l.addresses := by
    simp
  have htcp : ∀ h address index, Handler.ping address index ∈ [Handler.tcp h] →
      address ∈ l.addresses := by
    simp
  cases e with
  | accepted connection error environment =>
    cases error with
    | true => exact ⟨_, htcp (.onStop connection), rfl⟩
    | false => exact ⟨[], hnone, (List.append_nil _).symm⟩
  | received connection buffer timestamp environments =>
    obtain ⟨s, hs⟩ := hl.session he
    obtain ⟨posted, -, hhandlers⟩ := hl.onData_handlers hs buffer timestamp environments
    refine ⟨_, ?_, hhandlers⟩
    intro address index hmem
    obtain ⟨i, -, heq⟩ := List.mem_map.mp hmem
    cases heq
    exact List.mem_map.mpr ⟨_, hs, rfl⟩
  | closed connection => exact ⟨_, htcp (.onStop connection), rfl⟩
  | handler environment =>
    cases hfront : l.handlers with
    | nil => exact absurd hfront he
    | cons handler rest =>
      rw [step, runHandler, hfront]
      cases handler with
      | tcp handler =>
        cases handler with
        | onStop connection => exact ⟨_, htcp (.removal connection), rfl⟩
        | removal connection => exact ⟨[], hnone, (List.append_nil _).symm⟩
      | ping address index =>
        refine ⟨[], hnone, ?_⟩
        dsimp only
        cases connectionOf address l.streamer <;> exact (List.append_nil _).symm
  | _ => exact ⟨[], hnone, (List.append_nil _).symm⟩

/-- The session that an event uses through a ping. -/
def usesOf (l : CommandLoop) : Event → List Use
  | .handler _ =>
    match l.handlers with
    | .ping address _ :: _ => [⟨address, (connectionOf address l.streamer).isSome⟩]
    | _ => []
  | _ => []

theorem step_uses (l : CommandLoop) (e : Event) :
    (l.step e).sessionUses = l.sessionUses ++ l.usesOf e := by
  cases e with
  | accepted connection error environment => cases error <;> exact (List.append_nil _).symm
  | received connection buffer timestamp environments =>
    rw [step, onData]
    split <;> exact (List.append_nil _).symm
  | handler environment =>
    rw [step, runHandler, usesOf]
    cases l.handlers with
    | nil => exact (List.append_nil _).symm
    | cons handler rest =>
      cases handler with
      | tcp handler => cases handler <;> exact (List.append_nil _).symm
      | ping address index =>
        dsimp only
        cases connectionOf address l.streamer <;> rfl
  | _ => exact (List.append_nil _).symm

/-- A handler that was in the queue before a step. -/
theorem mem_handlers_before {e : Event} {h : Handler}
    (hh : h ∈ if e.isHandler then l.handlers.tail else l.handlers) : h ∈ l.handlers := by
  split at hh
  · exact List.mem_of_mem_tail hh
  · exact hh

/-! ### Exactly when no ping outlives its session -/

theorem used_step (h : PingsAlive l) (e : Event) :
    ∀ use ∈ (l.step e).sessionUses, use.existed = true := by
  rw [step_uses]
  intro use huse
  rcases List.mem_append.mp huse with huse | huse
  · exact h.used use huse
  · cases e with
    | handler environment =>
      rw [usesOf] at huse
      split at huse
      · rename_i address index rest hfront
        rw [List.mem_singleton.mp huse]
        exact (connectionOf_isSome address l).mpr
          (h.posted address index (by rw [hfront]; exact List.mem_cons_self))
      · exact absurd huse List.not_mem_nil
    | _ => exact absurd huse List.not_mem_nil

/-- A step in which no connection closes before the pings of its session. -/
theorem alive_step (hl : Wired l) (h : PingsAlive l) {e : Event} (he : l.enabled e)
    (hquiet : ClosesQuietly l e) : PingsAlive (l.step e) := by
  refine ⟨?_, used_step h e⟩
  by_cases hclosed : ∃ connection, e = .closed connection
  · obtain ⟨connection, rfl⟩ := hclosed
    obtain ⟨s, hs⟩ := hl.session he
    rw [addresses_closed hl hs]
    intro address index hmem
    have hmem : Handler.ping address index ∈ l.handlers := by
      rcases List.mem_append.mp hmem with hmem | hmem
      · exact hmem
      · simp at hmem
    refine List.mem_filter.mpr ⟨h.posted address index hmem, bne_iff_ne.mpr ?_⟩
    rintro rfl
    -- the session has posted no ping
    have hpings : s.pingHandlers = [] := by
      rw [ClosesQuietly, postedPings, lookup_of_mem hl.registered.connections hs] at hquiet
      exact List.map_eq_nil_iff.mp hquiet
    have hqueue := hl.pings _ hs
    rw [hpings, List.filterMap_eq_nil_iff] at hqueue
    have hnone := hqueue _ hmem
    simp [Handler.pingOf] at hnone
  · obtain ⟨posted, hposted, hhandlers⟩ := step_handlers hl he
    rw [hhandlers]
    intro address index hmem
    refine mem_addresses_step hl he (fun connection heq => hclosed ⟨connection, heq⟩) ?_
    rcases List.mem_append.mp hmem with hmem | hmem
    · exact h.posted address index (mem_handlers_before hmem)
    · exact hposted address index hmem

/-- A ping outlives its session when the connection closes before it. -/
theorem not_alive_step (hl : Wired l) {e : Event} (he : l.enabled e)
    (hquiet : ¬ ClosesQuietly l e) : ¬ PingsAlive (l.step e) := by
  cases e with
  | closed connection =>
    obtain ⟨s, hs⟩ := hl.session he
    have hpings : s.pingHandlers ≠ [] := by
      rw [ClosesQuietly, postedPings, lookup_of_mem hl.registered.connections hs] at hquiet
      exact fun hnil => hquiet (List.map_eq_nil_iff.mpr hnil)
    obtain ⟨index, hindex⟩ := List.exists_mem_of_ne_nil _ hpings
    rw [← hl.pings _ hs, List.mem_filterMap] at hindex
    obtain ⟨h, hh, hindex⟩ := hindex
    intro halive
    cases h with
    | tcp h => cases hindex
    | ping address i =>
      have haddress : address = s.address := by
        by_contra hne
        simp [Handler.pingOf, hne] at hindex
      have hmem := halive.posted address i (List.mem_append_left _ hh)
      rw [addresses_closed hl hs, haddress] at hmem
      simp at hmem
  | _ => exact absurd trivial hquiet

theorem alive_started (n : ℕ) (streamer : Streamer) : PingsAlive (started n streamer) :=
  ⟨fun _ _ hh => absurd hh List.not_mem_nil, List.forall_mem_nil _⟩

/-- **No ping outlives its session if and only if connections close quietly**, in every run of
the event loop. -/
theorem pings_alive_iff (n streamingPort : ℕ) (format : FormatSelection) (gain : Option ℕ)
    (now : Timestamp) {es : List Event}
    (hes : system.Admits (started n (Streamer.create streamingPort format gain now)) es) :
    system.Always PingsAlive (started n (Streamer.create streamingPort format gain now)) es ↔
      (system.restrict ClosesQuietly).Admits
        (started n (Streamer.create streamingPort format gain now)) es :=
  system.always_iff_admits_restrict (fun l => Wired l ∧ PingsAlive l) PingsAlive ClosesQuietly
    (fun _ h => h.2)
    (fun _ _ h he hquiet => ⟨wired_step h.1 he, alive_step h.1 h.2 he hquiet⟩)
    (fun _ _ h he hquiet => not_alive_step h.1 he hquiet) es _
    ⟨wired_started n streamingPort format gain now, alive_started n _⟩ hes

/-- The ping that was posted runs, and then the player leaves. -/
def quietEnd : List Event := firstPing ++ [.handler Streamer.quiet, .closed 0]

theorem pings_alive_iff_quietEnd :
    system.Always PingsAlive (started 10 (Streamer.create 9001 .PCM none ⟨0⟩)) quietEnd ∧
      (system.exec (started 10 (Streamer.create 9001 .PCM none ⟨0⟩)) quietEnd).sessionUses =
        [⟨1, true⟩] :=
  ⟨(pings_alive_iff 10 9001 .PCM none ⟨0⟩ (by decide +kernel)).mpr (by decide +kernel),
    by decide +kernel⟩

/-! ### A ping that has outlived its session -/

/-- The queue goes on until its turn. -/
theorem orphan_step (hl : Wired l) {e : Event} (he : l.enabled e) {address index k : ℕ}
    (hk : l.handlers[k]? = some (.ping address index)) (hdead : address ∉ l.addresses) :
    if e.isHandler then
      (k = 0 ∧ Use.mk address false ∈ (l.step e).sessionUses) ∨
        ∃ i, k = i + 1 ∧ (l.step e).handlers[i]? = some (.ping address index)
    else (l.step e).handlers[k]? = some (.ping address index) := by
  obtain ⟨posted, -, hhandlers⟩ := step_handlers hl he
  rw [hhandlers]
  cases hhandler : e.isHandler with
  | false =>
    rw [if_neg Bool.false_ne_true, if_neg Bool.false_ne_true]
    exact List.getElem?_append_left (List.getElem?_eq_some_iff.mp hk).1 |>.trans hk
  | true =>
    rw [if_pos rfl, if_pos rfl]
    cases hfront : l.handlers with
    | nil =>
      rw [hfront] at hk
      cases hk
    | cons handler rest =>
      rw [hfront] at hk
      cases k with
      | zero =>
        obtain rfl : handler = .ping address index := Option.some.inj hk
        refine Or.inl ⟨rfl, ?_⟩
        have hnone : (connectionOf address l.streamer).isSome = false := by
          rw [Bool.eq_false_iff]
          exact fun hsome => hdead ((connectionOf_isSome address l).mp hsome)
        cases e with
        | handler environment =>
          rw [step_uses, usesOf, hfront]
          dsimp only
          rw [hnone]
          exact List.mem_append_right _ List.mem_cons_self
        | _ => cases hhandler
      | succ i =>
        refine Or.inr ⟨i, rfl, ?_⟩
        have hrest : rest[i]? = some (.ping address index) := hk
        exact (List.getElem?_append_left (List.getElem?_eq_some_iff.mp hrest).1).trans hrest

theorem uses_exec {use : Use} (es : List Event) (huse : use ∈ l.sessionUses) :
    use ∈ (system.exec l es).sessionUses := by
  induction es generalizing l with
  | nil => exact huse
  | cons e es ih =>
    apply ih
    show use ∈ (l.step e).sessionUses
    rw [step_uses]
    exact List.mem_append_left _ huse

theorem orphan_exec (hl : Wired l) {es : List Event} (hes : system.Admits l es)
    {address index k : ℕ} (hk : l.handlers[k]? = some (.ping address index))
    (hdead : address ∉ l.addresses) (hturns : k < es.countP Event.isHandler) :
    Use.mk address false ∈ (system.exec l es).sessionUses := by
  induction es generalizing l k with
  | nil => exact absurd hturns (Nat.not_lt_zero k)
  | cons e es ih =>
    have hle := hl.known address index (List.mem_of_getElem? hk)
    have hdead' := not_mem_addresses_step hl hes.1 hle hdead
    have horphan := orphan_step hl hes.1 hk hdead
    rw [List.countP_cons] at hturns
    cases hhandler : e.isHandler with
    | false =>
      rw [hhandler, if_neg Bool.false_ne_true] at horphan hturns
      exact ih (wired_step hl hes.1) hes.2 horphan hdead' hturns
    | true =>
      rw [hhandler, if_pos rfl] at horphan hturns
      rcases horphan with ⟨-, huse⟩ | ⟨i, rfl, hi⟩
      · exact uses_exec es huse
      · exact ih (wired_step hl hes.1) hes.2 hi hdead' (Nat.lt_of_succ_lt_succ hturns)

/-- **A connection that closes before a ping of its session**: the ping runs for the object that was
destroyed, once the handlers before it have run, whatever else happens.  The heap may have given its
address to another one by then. -/
theorem orphan_used (n streamingPort : ℕ) (format : FormatSelection) (gain : Option ℕ)
    (now : Timestamp) {es fs : List Event} (connection address index k : ℕ)
    (hes : system.Admits (started n (Streamer.create streamingPort format gain now))
      (es ++ .closed connection :: fs))
    (hsession : connectionOf address (system.exec (started n (Streamer.create streamingPort format
      gain now)) es).streamer = some connection)
    (hk : (system.exec (started n (Streamer.create streamingPort format gain now))
      es).handlers[k]? = some (.ping address index))
    (hturns : k < fs.countP Event.isHandler) :
    Use.mk address false ∈ (system.exec (started n (Streamer.create streamingPort format gain now))
      (es ++ .closed connection :: fs)).sessionUses := by
  rw [System.admits_append] at hes
  obtain ⟨hbefore, hclosed, hafter⟩ := hes
  have hl := wired_exec (wired_started n streamingPort format gain now) hbefore
  obtain ⟨⟨c, s⟩, hs, hc, haddress⟩ := connectionOf_some hsession
  obtain rfl : c = connection := hc
  obtain rfl : s.address = address := haddress
  rw [System.exec_append]
  generalize system.exec (started n (Streamer.create streamingPort format gain now)) es = l
    at hclosed hafter hl hs hk
  have hposted : (l.step (.closed c)).handlers[k]? = some (.ping s.address index) :=
    (List.getElem?_append_left (List.getElem?_eq_some_iff.mp hk).1).trans hk
  have hdead : s.address ∉ (l.step (.closed c)).addresses := by
    rw [addresses_closed hl hs]
    simp
  exact orphan_exec (wired_step (e := .closed c) hl hclosed) hafter hposted hdead hturns

/-- The player leaves before its ping has run. -/
theorem orphan_used_firstPing :
    Use.mk 1 false ∈ (system.exec (started 10 (Streamer.create 9001 .PCM none ⟨0⟩))
      (firstPing ++ .closed 0 :: [.handler Streamer.quiet])).sessionUses :=
  orphan_used 10 9001 .PCM none ⟨0⟩ 0 1 14 0 (by decide +kernel) (by decide +kernel)
    (by decide +kernel) (by decide)

end CommandLoop

end SlimStreamer

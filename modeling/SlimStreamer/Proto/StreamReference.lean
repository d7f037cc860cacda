import SlimStreamer.Proto.SessionRuns
import SlimStreamer.Proto.StreamDraining

/-!
# The references to the HTTP sessions

A SlimProto session refers to the HTTP session that its player has opened, by a plain pointer.
The reference is set before the HTTP session is stored, and reset when the connection of an HTTP
session with the same client identifier closes; the HTTP session is erased some time later.

* `Keeps` — a session keeps its identity and loses its reference at most;
* `clientID_injective` — the identifiers are the numerals of a counter;
* `Referred` — no reference dangles: it leads to a stored HTTP session with the same identifier,
  whose connection is not closed; `referred_exec`;
* `onHTTPClose_reference` — when the closing of one connection leaves a reference to another.
-/

namespace SlimStreamer

namespace CommandSession

/-! ### What a session keeps -/

/-- The identity stays, and no reference is set. -/
structure Keeps (s s' : CommandSession) : Prop where
  address : s'.address = s.address
  clientID : s'.clientID = s.clientID
  reference : s'.streamingSession = s.streamingSession ∨ s'.streamingSession = none

theorem Keeps.refl (s : CommandSession) : Keeps s s := ⟨rfl, rfl, Or.inl rfl⟩

theorem Keeps.trans {s s' s'' : CommandSession} (h : Keeps s s') (h' : Keeps s' s'') :
    Keeps s s'' where
  address := h'.address.trans h.address
  clientID := h'.clientID.trans h.clientID
  reference := by
    rcases h'.reference with hr | hr
    · rw [hr]
      exact h.reference
    · exact Or.inr hr

theorem Keeps.of_request {s s' : CommandSession} (h : RequestStep s s') : Keeps s s' :=
  ⟨h.address, h.clientID, Or.inl h.streamingSession⟩

theorem Change.toKeeps {s s' : CommandSession} (h : Change s s') : Keeps s s' := by
  cases h with
  | prepared => exact ⟨rfl, rfl, Or.inr rfl⟩
  | stopped => split <;> exact ⟨rfl, rfl, Or.inl rfl⟩
  | _ => exact ⟨rfl, rfl, Or.inl rfl⟩

theorem Changes.toKeeps {s s' : CommandSession} (h : Changes s s') : Keeps s s' :=
  h.keeps Keeps.refl Keeps.trans Change.toKeeps

variable (context : Context)

theorem deliver_keeps (timestamp : Timestamp) (command : ClientCommand) (s : CommandSession) :
    Keeps s (s.deliver context timestamp command) := by
  have hreset : Keeps s { s with measuringLatency := false } := ⟨rfl, rfl, Or.inl rfl⟩
  cases command with
  | STAT d => exact Keeps.of_request (onSTAT_step context timestamp d s).toRequestStep
  | HELO helo => exact hreset.trans (Keeps.of_request (onHELO_step context helo _).toRequestStep)
  | _ => exact hreset

theorem call_keeps (s : CommandSession) (c : SessionCall) (h : c.isDetached = true) :
    Keeps s (s.call c) := by
  cases c with
  | buffered ring => exact ⟨rfl, rfl, Or.inl rfl⟩
  | message context timestamp command => exact deliver_keeps context timestamp command s
  | unreadable => exact ⟨rfl, rfl, Or.inl rfl⟩
  | pingTimer context => exact Keeps.of_request (onPingTimer_step context s).toRequestStep
  | pingHandler context => exact Keeps.of_request (onPingHandler_step context s).toRequestStep
  | prepare context rate => exact (prepare_changes context rate s).toKeeps
  | setStreamingSession streamingSession => exact Bool.noConfusion h
  | consumeChunk context answer chunk => exact (consumeChunk_changes context answer chunk s).toKeeps
  | stop context => exact (stop_changes context s).toKeeps

theorem Evolves.toKeeps {s s' : CommandSession} (h : Evolves SessionCall.isDetached s s') :
    Keeps s s' :=
  h.keeps (P := Keeps s) (fun s' c hc hs => hs.trans (call_keeps s' c hc)) (Keeps.refl s)

end CommandSession

/-! ### The identifiers -/

/-- The characters of a numeral can be read back from its octets. -/
theorem map_octets_digits {digits : List Char} (h : ∀ c ∈ digits, c.isDigit) :
    (octets digits).map (fun b => Char.ofNat b.toNat) = digits := by
  rw [octets, List.map_map]
  refine (List.map_congr_left fun c hc => ?_).trans (List.map_id digits)
  have hdigit := h c hc
  rw [Char.isDigit, Bool.and_eq_true, decide_eq_true_iff, decide_eq_true_iff] at hdigit
  have hle : c.toNat ≤ 57 := hdigit.2
  show Char.ofNat (UInt8.ofNat c.toNat).toNat = c
  rw [UInt8.toNat_ofNat', Nat.mod_eq_of_lt (by omega)]
  exact Char.ofNat_toNat c

/-- Different counters have different identifiers. -/
theorem clientID_injective {m n : ℕ}
    (h : octets (Nat.toDigits 10 m) = octets (Nat.toDigits 10 n)) : m = n := by
  have hdigits (k : ℕ) : ∀ c ∈ Nat.toDigits 10 k, c.isDigit := fun c hc =>
    Nat.isDigit_of_mem_toDigits (by decide) (by decide) hc
  have hread := congrArg (List.map fun b => Char.ofNat b.toNat) h
  rw [map_octets_digits (hdigits m), map_octets_digits (hdigits n)] at hread
  rw [← Nat.ofDigitChars_ten_toDigits (n := m), hread, Nat.ofDigitChars_ten_toDigits]

namespace Streamer

open GuardedExecution

/-- The identifier of a session is the numeral of the counter when it was opened. -/
structure Identified (t : Streamer) : Prop extends Registered t where
  numerals : ∀ e ∈ t.commandSessions, e.2.clientID = octets (Nat.toDigits 10 e.2.address)

variable {t : Streamer}

/-- **No two sessions have the same identifier.** -/
theorem Identified.inj (ht : Identified t) {d e : ℕ × CommandSession}
    (hd : d ∈ t.commandSessions) (he : e ∈ t.commandSessions)
    (h : d.2.clientID = e.2.clientID) : d = e := by
  rw [ht.numerals d hd, ht.numerals e he] at h
  exact List.inj_on_of_nodup_map ht.addresses hd he (clientID_injective h)

theorem Identified.nodup (ht : Identified t) :
    (t.commandSessions.map fun e => e.2.clientID).Nodup :=
  List.Nodup.map_on (fun _ hd _ he h => ht.inj hd he h)
    (List.Nodup.of_map Prod.fst ht.connections)

theorem findSessionByID_some {clientID : List UInt8} {connection : ℕ}
    (h : t.findSessionByID clientID = some connection) :
    ∃ e ∈ t.commandSessions, e.1 = connection ∧ e.2.clientID = clientID := by
  rw [findSessionByID, Option.map_eq_some_iff] at h
  obtain ⟨e, he, rfl⟩ := h
  have hclient := List.find?_some he
  exact ⟨e, List.mem_of_find?_eq_some he, rfl, beq_iff_eq.mp hclient⟩

/-- A registered session is found by its identifier. -/
theorem Identified.findSessionByID (ht : Identified t) {e : ℕ × CommandSession}
    (he : e ∈ t.commandSessions) : t.findSessionByID e.2.clientID = some e.1 := by
  cases h : t.findSessionByID e.2.clientID with
  | none =>
    rw [Streamer.findSessionByID, Option.map_eq_none_iff, List.find?_eq_none] at h
    exact absurd (beq_self_eq_true _) (h e he)
  | some connection =>
    obtain ⟨d, hd, rfl, hclient⟩ := findSessionByID_some h
    rw [ht.inj hd he hclient]

/-! ### The calls that concern a connection -/

/-- Setting the reference of the session at one connection. -/
theorem mem_setStreamingSession {connection : ℕ} {reference : Option ℕ} {e : ℕ × CommandSession}
    (he : e ∈ (t.setStreamingSession connection reference).commandSessions) :
    ∃ d ∈ t.commandSessions, e.1 = d.1 ∧ e.2.address = d.2.address ∧
      e.2.clientID = d.2.clientID ∧
      e.2.streamingSession = if d.1 = connection then reference else d.2.streamingSession := by
  obtain ⟨d, hd, rfl⟩ := List.mem_map.mp he
  refine ⟨d, hd, ?_⟩
  by_cases h : d.1 = connection
  · rw [if_pos h, if_pos h]
    exact ⟨rfl, rfl, rfl, rfl⟩
  · rw [if_neg h, if_neg h]
    exact ⟨rfl, rfl, rfl, rfl⟩

/-- **What a request does**: nothing, or a stop of its connection, or a new HTTP session that the
session found by the identifier refers to. -/
theorem onHTTPData_cases (connection : ℕ) (buffer : List UInt8) (t : Streamer) :
    (t.onHTTPData connection buffer).1 = t ∨
      (t.onHTTPData connection buffer).1 = t.stopConnection connection ∨
      ∃ clientID session,
        (t.streamingSessions.any fun entry => entry.1 == connection) = false ∧
        t.findSessionByID clientID = some session ∧
        (t.onHTTPData connection buffer).1 =
          { t.setStreamingSession session (some connection) with
            streamingSessions := addSession t.streamingSessions connection clientID } := by
  rw [onHTTPData]
  split
  · exact Or.inl rfl
  · rename_i hunknown
    split
    · exact Or.inl rfl
    · rename_i clientID _
      split
      · exact Or.inr (Or.inl rfl)
      · rename_i session hfound
        rw [Bool.not_eq_true] at hunknown
        exact Or.inr (Or.inr ⟨clientID, session, hunknown, hfound, rfl⟩)

theorem onHTTPClose_unknown {connection : ℕ} (h : t.streamingSessions.lookup connection = none) :
    t.onHTTPClose connection = t := by
  rw [onHTTPClose, h]

/-- A close erases no HTTP session yet. -/
theorem onHTTPClose_stored (connection : ℕ) (t : Streamer) :
    (t.onHTTPClose connection).streamingSessions = t.streamingSessions ∧
      ∀ c ∈ (t.onHTTPClose connection).removals, c = connection ∨ c ∈ t.removals := by
  rw [onHTTPClose]
  split
  · exact ⟨rfl, fun c hc => Or.inr hc⟩
  · dsimp only
    split <;> exact ⟨rfl, fun c hc => List.mem_cons.mp hc⟩

/-- **The sessions after a close**: the one with the identifier of the HTTP session refers to
none, whatever it referred to. -/
theorem onHTTPClose_sessions (ht : Identified t) {connection : ℕ} {clientID : List UInt8}
    (h : t.streamingSessions.lookup connection = some clientID) :
    (t.onHTTPClose connection).commandSessions = t.commandSessions.map fun e =>
      if e.2.clientID = clientID then (e.1, e.2.setStreamingSession none) else e := by
  rw [onHTTPClose, h]
  dsimp only
  cases hfound : t.findSessionByID clientID with
  | none =>
    refine (List.map_id _).symm.trans (List.map_congr_left fun e he => ?_)
    have hne : e.2.clientID ≠ clientID := by
      intro heq
      have hsome := ht.findSessionByID he
      rw [heq, hfound] at hsome
      cases hsome
    rw [if_neg hne, id]
  | some session =>
    obtain ⟨d, hd, hsession, hclient⟩ := findSessionByID_some hfound
    show t.commandSessions.map _ = _
    refine List.map_congr_left fun e he => ?_
    by_cases hes : e.1 = session
    · have hed : e = d := List.inj_on_of_nodup_map ht.connections he hd (hes.trans hsession.symm)
      rw [if_pos hes, if_pos (hed ▸ hclient)]
    · have hne : e.2.clientID ≠ clientID := by
        intro heq
        exact hes ((congrArg Prod.fst (ht.inj he hd (heq.trans hclient.symm))).trans hsession)
      rw [if_neg hes, if_neg hne]

theorem mem_onHTTPClose (ht : Identified t) {connection : ℕ} {clientID : List UInt8}
    (h : t.streamingSessions.lookup connection = some clientID) {e : ℕ × CommandSession}
    (he : e ∈ (t.onHTTPClose connection).commandSessions) :
    ∃ d ∈ t.commandSessions, e.2.address = d.2.address ∧ e.2.clientID = d.2.clientID ∧
      e.2.streamingSession = if d.2.clientID = clientID then none else d.2.streamingSession := by
  rw [onHTTPClose_sessions ht h] at he
  obtain ⟨d, hd, rfl⟩ := List.mem_map.mp he
  refine ⟨d, hd, ?_⟩
  by_cases hcd : d.2.clientID = clientID
  · rw [if_pos hcd, if_pos hcd]
    exact ⟨rfl, rfl, rfl⟩
  · rw [if_neg hcd, if_neg hcd]
    exact ⟨rfl, rfl, rfl⟩

/-- A new session has the next numeral, and no reference. -/
theorem mem_onSlimProtoOpen {connection : ℕ} {environment : Environment}
    (hopen : enabled t (.slimProtoOpen connection environment)) {e : ℕ × CommandSession}
    (he : e ∈ (t.onSlimProtoOpen connection environment).commandSessions) :
    e ∈ t.commandSessions ∨
      e.2.clientID = octets (Nat.toDigits 10 e.2.address) ∧ e.2.streamingSession = none := by
  rw [onSlimProtoOpen, addSession, lookup_none hopen, if_neg Bool.false_ne_true] at he
  rcases List.mem_append.mp he with he | he
  · exact Or.inl he
  · obtain rfl := List.mem_singleton.mp he
    right
    rw [CommandSession.start, CommandSession.processEvent_start]
    split <;> exact ⟨rfl, rfl⟩

theorem mem_onSlimProtoClose {connection : ℕ} {e : ℕ × CommandSession}
    (he : e ∈ (t.onSlimProtoClose connection).commandSessions) : e ∈ t.commandSessions := by
  rw [onSlimProtoClose] at he
  split at he
  · exact he
  · exact List.mem_of_mem_filter he

theorem onSlimProtoClose_http (connection : ℕ) (t : Streamer) :
    SameHTTP t (t.onSlimProtoClose connection) := by
  rw [onSlimProtoClose]
  split <;> exact ⟨rfl, rfl⟩

/-! ### Identifiers stay -/

theorem numerals_of_sessions {t' : Streamer} (ht : Identified t)
    (h : ∀ e ∈ t'.commandSessions, ∃ d ∈ t.commandSessions, e.2.address = d.2.address ∧
      e.2.clientID = d.2.clientID) :
    ∀ e ∈ t'.commandSessions, e.2.clientID = octets (Nat.toDigits 10 e.2.address) := by
  intro e he
  obtain ⟨d, hd, haddress, hclient⟩ := h e he
  rw [hclient, haddress]
  exact ht.numerals d hd

theorem identified_step {e : Stimulus} (ht : Identified t) (he : enabled t e) :
    Identified (step t e) := by
  refine ⟨registered_step ht.toRegistered he, ?_⟩
  by_cases hinternal : isInternal e = true
  · refine numerals_of_sessions ht fun d hd => ?_
    obtain ⟨c, hc, _, hevolves⟩ := (step_evolves ht.toRegistered hinternal).1.mem hd
    exact ⟨c, hc, hevolves.toKeeps.address, hevolves.toKeeps.clientID⟩
  · cases e with
    | slimProtoOpen connection environment =>
      intro d hd
      rcases mem_onSlimProtoOpen he hd with hd | ⟨hclient, _⟩
      · exact ht.numerals d hd
      · exact hclient
    | slimProtoClose connection => exact fun d hd => ht.numerals d (mem_onSlimProtoClose hd)
    | httpData connection buffer =>
      refine numerals_of_sessions ht fun d hd => ?_
      change d ∈ (t.onHTTPData connection buffer).1.commandSessions at hd
      rcases onHTTPData_cases connection buffer t with hsame | hstop | ⟨_, session, _, _, hnew⟩
      · rw [hsame] at hd
        exact ⟨d, hd, rfl, rfl⟩
      · rw [hstop] at hd
        exact ⟨d, hd, rfl, rfl⟩
      · rw [hnew] at hd
        obtain ⟨c, hc, _, haddress, hclient, _⟩ := mem_setStreamingSession hd
        exact ⟨c, hc, haddress, hclient⟩
    | httpClose connection =>
      refine numerals_of_sessions ht fun d hd => ?_
      change d ∈ (t.onHTTPClose connection).commandSessions at hd
      cases hlookup : t.streamingSessions.lookup connection with
      | none =>
        rw [onHTTPClose_unknown hlookup] at hd
        exact ⟨d, hd, rfl, rfl⟩
      | some clientID =>
        obtain ⟨c, hc, haddress, hclient, _⟩ := mem_onHTTPClose ht hlookup hd
        exact ⟨c, hc, haddress, hclient⟩
    | httpRemoved connection => exact ht.numerals
    | _ => exact absurd rfl hinternal

theorem identified_create (streamingPort : ℕ) (format : FormatSelection) (gain : Option ℕ)
    (now : Timestamp) : Identified (create streamingPort format gain now) :=
  ⟨registered_create streamingPort format gain now, List.forall_mem_nil _⟩

/-! ### The HTTP sessions by their connections -/

theorem lookup_addSession {β : Type} {sessions : List (ℕ × β)} {connection : ℕ}
    (h : (sessions.any fun entry => entry.1 == connection) = false) (session : β) (c : ℕ) :
    (addSession sessions connection session).lookup c =
      if c = connection then some session else sessions.lookup c := by
  rw [addSession, h, if_neg Bool.false_ne_true, List.lookup_append]
  by_cases hc : c = connection
  · have hnone : sessions.lookup connection = none := by
      rw [List.lookup_eq_none_iff]
      intro e he
      have hne := List.any_eq_false.mp h e he
      rw [beq_iff_eq] at hne
      exact bne_iff_ne.mpr (Ne.symm hne)
    rw [if_pos hc, hc, hnone]
    simp
  · have hne : (c == connection) = false := beq_eq_false_iff_ne.mpr hc
    rw [if_neg hc]
    simp [List.lookup_cons, hne]

theorem lookup_eraseSession {β : Type} (sessions : List (ℕ × β)) {connection c : ℕ}
    (h : c ≠ connection) : (eraseSession sessions connection).lookup c = sessions.lookup c := by
  induction sessions with
  | nil => rfl
  | cons e sessions ih =>
    rw [eraseSession] at ih ⊢
    rw [List.filter_cons]
    by_cases he : e.1 = connection
    · have hne : (c == e.1) = false := beq_eq_false_iff_ne.mpr (he ▸ h)
      rw [he, bne_self_eq_false, if_neg Bool.false_ne_true, ih, List.lookup_cons, hne]
    · rw [if_pos (bne_iff_ne.mpr he), List.lookup_cons, List.lookup_cons, ih]

/-! ### References -/

/-- The reference of a session leads to a stored HTTP session with the same identifier, whose
connection is not among the closed ones. -/
def RefersTo (t : Streamer) (closed : List ℕ) (s : CommandSession) : Prop :=
  ∀ c, s.streamingSession = some c → t.streamingSessions.lookup c = some s.clientID ∧ c ∉ closed

/-- **What every run keeps**: a reference leads to an open HTTP session, and only closed ones are
to be erased. -/
structure Referred (closed : List ℕ) (t : Streamer) : Prop extends Identified t where
  reference : ∀ e ∈ t.commandSessions, RefersTo t closed e.2
  removals : ∀ c ∈ t.removals, c ∈ closed

variable {closed : List ℕ}

/-- A session that lost its reference at most still refers to an open HTTP session. -/
theorem RefersTo.keeps {t' : Streamer} {s s' : CommandSession} (h : RefersTo t closed s)
    (hs : CommandSession.Keeps s s') (hhttp : t'.streamingSessions = t.streamingSessions) :
    RefersTo t' closed s' := by
  intro c hc
  rw [hhttp, hs.clientID]
  rcases hs.reference with hr | hr
  · exact h c (hr ▸ hc)
  · rw [hr] at hc
    cases hc

theorem referred_internal (ht : Referred closed t) {e : Stimulus} (he : enabled t e)
    (hinternal : isInternal e = true) : Referred closed (step t e) := by
  obtain ⟨hsessions, hhttp⟩ := step_evolves ht.toRegistered hinternal
  refine ⟨identified_step ht.toIdentified he, fun d hd => ?_, ?_⟩
  · obtain ⟨c, hc, _, hevolves⟩ := hsessions.mem hd
    exact (ht.reference c hc).keeps hevolves.toKeeps hhttp.streamingSessions
  · rw [hhttp.removals]
    exact ht.removals

theorem referred_open (ht : Referred closed t) {connection : ℕ} {environment : Environment}
    (hopen : enabled t (.slimProtoOpen connection environment)) :
    Referred closed (t.onSlimProtoOpen connection environment) := by
  have hid : Identified (t.onSlimProtoOpen connection environment) :=
    identified_step ht.toIdentified hopen
  refine ⟨hid, fun e he c hc => ?_, ht.removals⟩
  rcases mem_onSlimProtoOpen hopen he with he | ⟨_, hnone⟩
  · exact ht.reference e he c hc
  · rw [hnone] at hc
    cases hc

theorem referred_close (ht : Referred closed t) (connection : ℕ) :
    Referred closed (t.onSlimProtoClose connection) := by
  have hid : Identified (t.onSlimProtoClose connection) :=
    identified_step (e := .slimProtoClose connection) ht.toIdentified trivial
  have hhttp := onSlimProtoClose_http connection t
  refine ⟨hid, fun e he c hc => ?_, ?_⟩
  · rw [hhttp.streamingSessions]
    exact ht.reference e (mem_onSlimProtoClose he) c hc
  · rw [hhttp.removals]
    exact ht.removals

/-- A request of an open connection: the HTTP session is stored once it is referred to. -/
theorem referred_data (ht : Referred closed t) {connection : ℕ} (hopen : connection ∉ closed)
    (buffer : List UInt8) : Referred closed (t.onHTTPData connection buffer).1 := by
  have hid : Identified (t.onHTTPData connection buffer).1 :=
    identified_step (e := .httpData connection buffer) ht.toIdentified trivial
  rcases onHTTPData_cases connection buffer t with
    hsame | hstop | ⟨clientID, session, hunknown, hfound, hnew⟩
  · rw [hsame]
    exact ht
  · rw [hstop] at hid ⊢
    exact ⟨hid, ht.reference, ht.removals⟩
  · rw [hnew] at hid ⊢
    obtain ⟨d, hd, hsession, hclient⟩ := findSessionByID_some hfound
    refine ⟨hid, fun e he c hc => ?_, ht.removals⟩
    obtain ⟨f, hf, _, _, hsame, hreference⟩ := mem_setStreamingSession he
    show (addSession t.streamingSessions connection clientID).lookup c = _ ∧ c ∉ closed
    rw [lookup_addSession hunknown, hsame]
    rw [hreference] at hc
    by_cases hfs : f.1 = session
    · rw [if_pos hfs] at hc
      obtain rfl := Option.some.inj hc
      have hfd : f = d := List.inj_on_of_nodup_map ht.connections hf hd (hfs.trans hsession.symm)
      rw [if_pos rfl, hfd, hclient]
      exact ⟨rfl, hopen⟩
    · rw [if_neg hfs] at hc
      have hstored := ht.reference f hf c hc
      have hne : c ≠ connection := by
        intro heq
        have hmem := mem_of_lookup hstored.1
        exact List.any_eq_false.mp hunknown _ hmem (beq_iff_eq.mpr heq)
      rw [if_neg hne]
      exact hstored

theorem referred_httpClose (ht : Referred closed t) (connection : ℕ) :
    Referred (connection :: closed) (t.onHTTPClose connection) := by
  have hid : Identified (t.onHTTPClose connection) :=
    identified_step (e := .httpClose connection) ht.toIdentified trivial
  obtain ⟨hstored, hremovals⟩ := onHTTPClose_stored connection t
  refine ⟨hid, fun e he c hc => ?_, fun c hc => ?_⟩
  · -- a reference that is left leads to an HTTP session that was not closed now
    have hleft : ∃ d ∈ t.commandSessions, e.2.clientID = d.2.clientID ∧
        d.2.streamingSession = some c ∧
        ¬ t.streamingSessions.lookup connection = some d.2.clientID := by
      cases hlookup : t.streamingSessions.lookup connection with
      | none =>
        rw [onHTTPClose_unknown hlookup] at he
        exact ⟨e, he, rfl, hc, by simp⟩
      | some clientID =>
        obtain ⟨d, hd, _, hclient, hreference⟩ := mem_onHTTPClose ht.toIdentified hlookup he
        rw [hreference] at hc
        by_cases hcd : d.2.clientID = clientID
        · rw [if_pos hcd] at hc
          cases hc
        · rw [if_neg hcd] at hc
          exact ⟨d, hd, hclient, hc, fun h => hcd (Option.some.inj h).symm⟩
    obtain ⟨d, hd, hclient, hreference, hother⟩ := hleft
    obtain ⟨hfound, hopen⟩ := ht.reference d hd c hreference
    rw [hstored, hclient]
    refine ⟨hfound, List.not_mem_cons_of_ne_of_not_mem ?_ hopen⟩
    rintro rfl
    exact hother hfound
  · rcases hremovals c hc with rfl | hc
    · exact List.mem_cons_self
    · exact List.mem_cons_of_mem connection (ht.removals c hc)

theorem referred_removed (ht : Referred closed t) {connection : ℕ}
    (hremoved : connection ∈ t.removals) : Referred closed (t.onHTTPRemoved connection) := by
  have hid : Identified (t.onHTTPRemoved connection) :=
    identified_step (e := .httpRemoved connection) ht.toIdentified hremoved
  refine ⟨hid, fun e he c hc => ?_, ?_⟩
  · obtain ⟨hfound, hopen⟩ := ht.reference e he c hc
    have hne : c ≠ connection := by
      rintro rfl
      exact hopen (ht.removals c hremoved)
    refine ⟨?_, hopen⟩
    show (eraseSession t.streamingSessions connection).lookup c = _
    rw [lookup_eraseSession _ hne]
    exact hfound
  · intro c hc
    exact ht.removals c (List.mem_of_mem_erase hc)

/-! ### Runs -/

/-- A Streamer, and the HTTP connections whose close it was told of. -/
structure Served where
  streamer : Streamer
  closed : List ℕ

/-- A connection that closed gets no data any more: its object is not used again. -/
def isLive (closed : List ℕ) : Stimulus → Prop
  | .httpData connection _ => connection ∉ closed
  | _ => True

instance (closed : List ℕ) : DecidablePred (isLive closed)
  | .httpData connection _ => inferInstanceAs (Decidable (connection ∉ closed))
  | .start _ | .stop _ | .slimProtoOpen _ _ | .slimProtoClose _ | .slimProtoData _ _ _ _
  | .pingTimer _ _ | .pingHandler _ _ | .httpClose _ | .httpRemoved _ | .chunk _ _ _ =>
    isTrue trivial

def closes (closed : List ℕ) : Stimulus → List ℕ
  | .httpClose connection => connection :: closed
  | _ => closed

def servedSystem : System Served Stimulus where
  enabled s e := enabled s.streamer e ∧ isLive s.closed e
  step s e := ⟨step s.streamer e, closes s.closed e⟩

instance (s : Served) (e : Stimulus) : Decidable (servedSystem.enabled s e) :=
  inferInstanceAs (Decidable (enabled s.streamer e ∧ isLive s.closed e))

/-- **Every call keeps the references.** -/
theorem referred_step {e : Stimulus} (ht : Referred closed t) (he : enabled t e)
    (hlive : isLive closed e) : Referred (closes closed e) (step t e) := by
  by_cases hinternal : isInternal e = true
  · have hnext := referred_internal ht he hinternal
    cases e with
    | httpClose connection => exact Bool.noConfusion hinternal
    | _ => exact hnext
  · cases e with
    | slimProtoOpen connection environment => exact referred_open ht he
    | slimProtoClose connection => exact referred_close ht connection
    | httpData connection buffer => exact referred_data ht hlive buffer
    | httpClose connection => exact referred_httpClose ht connection
    | httpRemoved connection => exact referred_removed ht he
    | _ => exact absurd rfl hinternal

theorem referred_create (streamingPort : ℕ) (format : FormatSelection) (gain : Option ℕ)
    (now : Timestamp) : Referred [] (create streamingPort format gain now) :=
  ⟨identified_create streamingPort format gain now, List.forall_mem_nil _, List.forall_mem_nil _⟩

theorem referred_exec {s : Served} (hs : Referred s.closed s.streamer) (es : List Stimulus)
    (hes : servedSystem.Admits s es) :
    Referred (servedSystem.exec s es).closed (servedSystem.exec s es).streamer :=
  servedSystem.exec_invariant (fun s => Referred s.closed s.streamer)
    (fun _ _ hs he => referred_step hs he.1 he.2) es s hs hes

/-- A reference leads to a stored HTTP session with the identifier of the session, and no two
sessions have the same identifier. -/
structure ReferencesStored (t : Streamer) : Prop where
  stored : ∀ e ∈ t.commandSessions, ∀ c, e.2.streamingSession = some c →
    t.streamingSessions.lookup c = some e.2.clientID
  distinct : (t.commandSessions.map fun e => e.2.clientID).Nodup

/-- **No reference dangles**, in any run in which closed HTTP connections get no data. -/
theorem references_stored (streamingPort : ℕ) (format : FormatSelection) (gain : Option ℕ)
    (now : Timestamp) (es : List Stimulus)
    (hes : servedSystem.Admits ⟨create streamingPort format gain now, []⟩ es) :
    ReferencesStored
      (servedSystem.exec ⟨create streamingPort format gain now, []⟩ es).streamer := by
  have ht := referred_exec (referred_create streamingPort format gain now) es hes
  exact ⟨fun e he c hc => (ht.reference e he c hc).1, ht.toIdentified.nodup⟩

/-- A player opens its HTTP session on connection 10, and again on connection 11 before the first
connection is seen to close. -/
def reconnect : List Stimulus :=
  [.start quiet, .slimProtoOpen 1 quiet, .slimProtoOpen 2 quiet,
    .httpData 10 (octets ['G', 'E', 'T', ' ', '/', '?', 'i', 'd', '=', '1']),
    .httpData 11 (octets ['G', 'E', 'T', ' ', '/', '?', 'i', 'd', '=', '1'])]

/-- Then the first connection closes, and its HTTP session is erased. -/
def lateClose : List Stimulus := reconnect ++ [.httpClose 10, .httpRemoved 10]

theorem references_stored_lateClose :
    ReferencesStored (servedSystem.exec ⟨create 9001 .PCM none ⟨0⟩, []⟩ lateClose).streamer :=
  references_stored 9001 .PCM none ⟨0⟩ lateClose (by decide +kernel)

/-! ### Closing one connection of several -/

theorem identified_exec (ht : Identified t) (es : List Stimulus) (hes : system.Admits t es) :
    Identified (system.exec t es) :=
  system.exec_invariant Identified (fun _ _ ht he => identified_step ht he) es t ht hes

/-- The reference of the session of a SlimProto connection. -/
def referenceOf (connection : ℕ) (t : Streamer) : Option ℕ :=
  (t.commandSessions.lookup connection).bind CommandSession.streamingSession

theorem lookup_map_sessions {f : CommandSession → CommandSession}
    (sessions : List (ℕ × CommandSession)) (p : CommandSession → Prop) [DecidablePred p]
    (connection : ℕ) :
    (sessions.map fun e => if p e.2 then (e.1, f e.2) else e).lookup connection =
      (sessions.lookup connection).map fun s => if p s then f s else s := by
  induction sessions with
  | nil => rfl
  | cons e sessions ih =>
    rw [List.map_cons]
    by_cases hp : p e.2
    · rw [if_pos hp, List.lookup_cons, List.lookup_cons, ih]
      cases connection == e.1 with
      | true => simp [hp]
      | false => rfl
    · rw [if_neg hp, List.lookup_cons, List.lookup_cons, ih]
      cases connection == e.1 with
      | true => simp [hp]
      | false => rfl

/-- **When a close leaves the reference to another HTTP session.**  In every run, closing the HTTP
connection `c₁` leaves the reference of a session to the HTTP session of `c₂` exactly if the HTTP
session of `c₁`, if there is one, has another identifier than the session. -/
theorem onHTTPClose_reference (streamingPort : ℕ) (format : FormatSelection) (gain : Option ℕ)
    (now : Timestamp) (es : List Stimulus)
    (hes : system.Admits (create streamingPort format gain now) es) :
    let t := system.exec (create streamingPort format gain now) es
    ∀ connection s, t.commandSessions.lookup connection = some s →
      ∀ c₁ c₂, s.streamingSession = some c₂ → c₁ ≠ c₂ →
        ((t.onHTTPClose c₁).referenceOf connection = some c₂ ↔
          ∀ clientID, t.streamingSessions.lookup c₁ = some clientID → clientID ≠ s.clientID) := by
  intro t connection s hs c₁ c₂ hreference _
  have ht : Identified t :=
    identified_exec (identified_create streamingPort format gain now) es hes
  cases hlookup : t.streamingSessions.lookup c₁ with
  | none =>
    rw [onHTTPClose_unknown hlookup, referenceOf, hs]
    simp [hreference]
  | some clientID =>
    rw [referenceOf, onHTTPClose_sessions ht hlookup,
      lookup_map_sessions t.commandSessions (fun s => s.clientID = clientID) connection, hs]
    by_cases hclient : s.clientID = clientID
    · simp [hclient, CommandSession.setStreamingSession]
    · simp [hclient, hreference, Ne.symm hclient]

/-- The close of a connection that carries no HTTP session. -/
theorem onHTTPClose_reference_reconnect :
    let t := system.exec (create 9001 .PCM none ⟨0⟩) reconnect
    ∀ connection s, t.commandSessions.lookup connection = some s →
      ∀ c₁ c₂, s.streamingSession = some c₂ → c₁ ≠ c₂ →
        ((t.onHTTPClose c₁).referenceOf connection = some c₂ ↔
          ∀ clientID, t.streamingSessions.lookup c₁ = some clientID → clientID ≠ s.clientID) :=
  onHTTPClose_reference 9001 .PCM none ⟨0⟩ reconnect (by decide +kernel)

/-- **The late close of the old connection detaches the new stream**: the reference to the HTTP
session of connection 11 is gone. -/
theorem reconnected_stream_detached :
    system.Admits (create 9001 .PCM none ⟨0⟩) (reconnect ++ [.httpClose 10]) ∧
      (system.exec (create 9001 .PCM none ⟨0⟩) reconnect).referenceOf 1 = some 11 ∧
      (system.exec (create 9001 .PCM none ⟨0⟩)
        (reconnect ++ [.httpClose 10])).referenceOf 1 = none := by
  decide +kernel

end Streamer

end SlimStreamer

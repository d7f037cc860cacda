import SlimStreamer.Lib.History
import SlimStreamer.Proto.SentCommands
import SlimStreamer.Proto.SessionRuns

/-!
# The commands a player is sent, in order

A session with a log of what happened to it: the events the player reported, the HTTP sessions
attached, the commands sent, and the moments it began to drain.  The log is read off the states
before and after each call.

* `Mark`, `marks`, `tracedSystem` — the log of a run;
* `Disciplined` — what the state of the session says about the log; the lemmas about one change;
* `call_disciplined` — every call keeps it;
* `command_trace` — a playback is started, attached, buffered and measured before it is unpaused,
  and after draining there is no start before the player has flushed.
-/

namespace SlimStreamer

namespace CommandSession

open History

inductive Mark where
  | received (event : StatEvent)
  /-- `setStreamingSession` with an HTTP session. -/
  | attached
  /-- A command, and the time offset known when it was sent. -/
  | sent (command : ServerCommand) (timeOffset : Option ℤ)
  /-- The state became Draining. -/
  | drained

namespace Mark

/-- `STRM` Start. -/
def isStart : Mark → Bool
  | sent command _ => command.isStart
  | _ => false

/-- `STRM` Unpause. -/
def isUnpause : Mark → Bool
  | sent command _ => command.isUnpause
  | _ => false

def isDrained : Mark → Bool
  | drained => true
  | _ => false

/-- Neither a start, nor the start of a playback, nor the beginning of draining. -/
def isPlain (mark : Mark) : Bool := !mark.isStart && !mark.isUnpause && !mark.isDrained

end Mark

/-- What a call reports to the session. -/
def SessionCall.reports : SessionCall → List Mark
  | .message _ _ (.STAT d) => (StatEvent.find d.event).toList.map Mark.received
  | .setStreamingSession (some _) => [.attached]
  | _ => []

/-- What a call adds to the log: the report comes first, and a session drains last. -/
def marks (s : CommandSession) (c : SessionCall) : List Mark :=
  c.reports ++ ((s.call c).written.drop s.written.length).map (fun command =>
      .sent command s.timeOffset) ++
    if s.state ≠ .draining ∧ (s.call c).state = .draining then [.drained] else []

/-- The calls to a session, with the log. -/
def tracedSystem : GuardedExecution.System (CommandSession × List Mark) SessionCall where
  enabled _ _ := True
  step x c := (x.1.call c, x.2 ++ x.1.marks c)

/-! ### The discipline -/

/-- What has to come before a mark. -/
def Precedes (before : List Mark) : Mark → Prop
  | .sent (.unpause _) timeOffset => timeOffset.isSome = true ∧
      ∃ b, since Mark.isStart before = some b ∧ (∀ m ∈ b, m.isUnpause = false) ∧
        .attached ∈ b ∧ .received .STMl ∈ b
  | .sent (.start _ _ _ _) _ =>
      ∀ b, since Mark.isDrained before = some b → .received .STMf ∈ b
  | _ => True

/-- **What the state of a session says about its log.** -/
structure Disciplined (s : CommandSession) (log : List Mark) : Prop where
  justified : Justified Precedes log
  started : s.state = .preparing ∨ s.state = .buffering →
    ∃ b, since Mark.isStart log = some b ∧ (∀ m ∈ b, m.isUnpause = false) ∧
      (s.streamingSession.isSome = true → .attached ∈ b) ∧
      (s.clientBufferIsReady = true → .received .STMl ∈ b)
  drained : ∀ b, since Mark.isDrained log = some b →
    .received .STMf ∈ b ∨ s.state = .draining ∨ s.state = .stopped

section Changes

variable {s s' : CommandSession} {log : List Mark}

theorem Precedes.of_plain (before : List Mark) {mark : Mark} (h : mark.isPlain = true) :
    Precedes before mark := by
  cases mark with
  | sent command timeOffset =>
    cases command with
    | start _ _ _ _ => cases h
    | unpause _ => cases h
    | _ => trivial
  | _ => trivial

/-- Plain marks can come at any time. -/
theorem justified_plain (h : Justified Precedes log) {m : List Mark}
    (hm : ∀ mark ∈ m, mark.isPlain = true) : Justified Precedes (log ++ m) := by
  refine justified_append.mpr ⟨h, fun before mark after heq => ?_⟩
  exact Precedes.of_plain _ (hm mark (heq ▸ by simp))

theorem since_plain (p : Mark → Bool) (hp : ∀ mark : Mark, mark.isPlain = true → p mark = false)
    (log : List Mark) {m : List Mark} (hm : ∀ mark ∈ m, mark.isPlain = true) :
    since p (log ++ m) = (since p log).map (· ++ m) :=
  since_append log fun mark hmark => hp mark (hm mark hmark)

theorem Mark.plain_start (mark : Mark) (h : mark.isPlain = true) : mark.isStart = false := by
  simp only [Mark.isPlain, Bool.and_eq_true, Bool.not_eq_true'] at h
  exact h.1.1

theorem Mark.plain_unpause (mark : Mark) (h : mark.isPlain = true) : mark.isUnpause = false := by
  simp only [Mark.isPlain, Bool.and_eq_true, Bool.not_eq_true'] at h
  exact h.1.2

theorem Mark.plain_drained (mark : Mark) (h : mark.isPlain = true) : mark.isDrained = false := by
  simp only [Mark.isPlain, Bool.and_eq_true, Bool.not_eq_true'] at h
  exact h.2

/-- The marks since the beginning of draining stay there, with the new ones. -/
theorem drained_append {m b : List Mark} (hd : ∀ mark ∈ m, mark.isDrained = false)
    (hb : since Mark.isDrained (log ++ m) = some b) :
    ∃ c, since Mark.isDrained log = some c ∧ b = c ++ m := by
  rw [since_append log hd, Option.map_eq_some_iff] at hb
  obtain ⟨c, hc, rfl⟩ := hb
  exact ⟨c, hc, rfl⟩

/-- A session that is neither draining nor stopped has seen the player flush. -/
theorem Disciplined.flushedSince (h : Disciplined s log)
    (hs : ¬ (s.state = .draining ∨ s.state = .stopped)) {b : List Mark}
    (hb : since Mark.isDrained log = some b) : .received .STMf ∈ b :=
  (h.drained b hb).resolve_right hs

/-- **A change that starts nothing**: the flags of the session are backed by the new marks. -/
theorem Disciplined.quiet (h : Disciplined s log) {m : List Mark}
    (hm : ∀ mark ∈ m, mark.isPlain = true) (hstate : s'.state = s.state)
    (hsession : s'.streamingSession.isSome = true →
      s.streamingSession.isSome = true ∨ .attached ∈ m)
    (hready : s'.clientBufferIsReady = true →
      s.clientBufferIsReady = true ∨ .received .STMl ∈ m) : Disciplined s' (log ++ m) := by
  refine ⟨justified_plain h.justified hm, fun hs => ?_, fun b hb => ?_⟩
  · rw [hstate] at hs
    obtain ⟨b, hb, hunpause, hattached, hbuffered⟩ := h.started hs
    refine ⟨b ++ m, ?_, fun mark hmark => ?_, fun hsome => ?_, fun hbuffer => ?_⟩
    · rw [since_plain Mark.isStart Mark.plain_start log hm, hb, Option.map_some]
    · rcases List.mem_append.mp hmark with hmark | hmark
      · exact hunpause mark hmark
      · exact Mark.plain_unpause mark (hm mark hmark)
    · rcases hsession hsome with hsome | hnew
      · exact List.mem_append_left m (hattached hsome)
      · exact List.mem_append_right b hnew
    · rcases hready hbuffer with hbuffer | hnew
      · exact List.mem_append_left m (hbuffered hbuffer)
      · exact List.mem_append_right b hnew
  · obtain ⟨c, hc, rfl⟩ :=
      drained_append (fun mark hmark => Mark.plain_drained mark (hm mark hmark)) hb
    rw [hstate]
    rcases h.drained c hc with hflushed | hs
    · exact Or.inl (List.mem_append_left m hflushed)
    · exact Or.inr hs

/-- Nothing that matters for the log changes. -/
theorem Disciplined.same (h : Disciplined s log) (hstate : s'.state = s.state)
    (hsession : s'.streamingSession = s.streamingSession)
    (hready : s'.clientBufferIsReady = s.clientBufferIsReady) : Disciplined s' log := by
  have hquiet : Disciplined s' (log ++ []) := h.quiet (List.forall_mem_nil _) hstate
    (fun hsome => Or.inl (hsession ▸ hsome)) (fun hsome => Or.inl (hready ▸ hsome))
  rwa [List.append_nil] at hquiet

/-- The state becomes Draining or Stopped. -/
theorem Disciplined.ends (h : Disciplined s log) {m : List Mark}
    (hm : ∀ mark ∈ m, mark.isStart = false ∧ mark.isUnpause = false)
    (hstate : s'.state = .draining ∨ s'.state = .stopped) : Disciplined s' (log ++ m) := by
  refine ⟨justified_append.mpr ⟨h.justified, fun before mark after heq => ?_⟩, fun hs => ?_,
    fun b hb => Or.inr hstate⟩
  · obtain ⟨hstart, hunpause⟩ := hm mark (heq ▸ by simp)
    cases mark with
    | sent command timeOffset =>
      cases command with
      | start _ _ _ _ => cases hstart
      | unpause _ => cases hunpause
      | _ => trivial
    | _ => trivial
  · rcases hstate with hd | hd <;> rcases hs with hs | hs <;> rw [hd] at hs <;> cases hs

/-- The player has flushed. -/
theorem Disciplined.flushed (h : Disciplined s log) (hstate : s'.state = .started) :
    Disciplined s' (log ++ [.received .STMf]) := by
  have hplain : ∀ mark ∈ [Mark.received .STMf], mark.isPlain = true := by simp [Mark.isPlain,
    Mark.isStart, Mark.isUnpause, Mark.isDrained]
  refine ⟨justified_plain h.justified hplain, fun hs => ?_, fun b hb => ?_⟩
  · rcases hs with hs | hs <;> rw [hstate] at hs <;> cases hs
  · obtain ⟨c, _, rfl⟩ :=
      drained_append (fun mark hmark => Mark.plain_drained mark (hplain mark hmark)) hb
    exact Or.inl (by simp)

/-- A started session is prepared: nothing is attached, and the buffer of the player is empty. -/
theorem Disciplined.prepared (h : Disciplined s log) (hs : s.state = .started) (rate : ℕ)
    (timeOffset : Option ℤ) :
    Disciplined ((s.setSamplingRate rate).stateChangeToPreparing.setState .preparing)
      (log ++ [.sent (.start s.formatSelection s.streamingPort rate s.clientID) timeOffset]) := by
  have hflushed : ∀ b, since Mark.isDrained log = some b → .received .STMf ∈ b :=
    fun b hb => h.flushedSince (by simp [hs]) hb
  refine ⟨justified_append.mpr ⟨h.justified, justified_singleton.mpr ?_⟩, fun _ => ?_,
    fun b hb => ?_⟩
  · rw [List.append_nil]
    exact hflushed
  · refine ⟨[], since_concat log rfl, List.forall_mem_nil _, fun hsome => ?_, fun hready => ?_⟩
    · cases hsome
    · cases hready
  · obtain ⟨c, hc, rfl⟩ := drained_append (by simp [Mark.isDrained]) hb
    exact Or.inl (List.mem_append_left _ (hflushed c hc))

theorem Disciplined.buffered (h : Disciplined s log) (hs : s.state = .preparing) :
    Disciplined (s.setState .buffering) log := by
  refine ⟨h.justified, fun _ => h.started (Or.inl hs), fun b hb => Or.inl ?_⟩
  exact h.flushedSince (by simp [hs]) hb

/-- **A buffering session is unpaused** when it is ready to play. -/
theorem Disciplined.played (h : Disciplined s log) (hs : s.state = .buffering)
    (hready : s.isReadyToPlay = true) (context : Context) (v : ℕ) {timeOffset : Option ℤ}
    (hoffset : timeOffset = s.timeOffset) :
    Disciplined ((s.stateChangeToPlaying context).setState .playing)
      (log ++ [.sent (.unpause v) timeOffset]) := by
  simp only [isReadyToPlay, isReadyToBuffer, Bool.and_eq_true] at hready
  obtain ⟨b, hb, hunpause, hattached, hbuffered⟩ := h.started (Or.inr hs)
  refine ⟨justified_append.mpr ⟨h.justified, justified_singleton.mpr ?_⟩, fun hs' => ?_,
    fun c hc => ?_⟩
  · rw [List.append_nil]
    refine ⟨hoffset ▸ hready.1.2, b, hb, hunpause, ?_, ?_⟩
    · exact hattached hready.1.1.2.2
    · exact hbuffered hready.2
  · rcases hs' with hs' | hs' <;> cases hs'
  · obtain ⟨d, hd, rfl⟩ := drained_append (by simp [Mark.isDrained]) hc
    exact Or.inl (List.mem_append_left _ (h.flushedSince (by simp [hs]) hd))

end Changes

/-! ### The calls -/

section Calls

variable {s : CommandSession} {log : List Mark} {c : SessionCall} {commands : List ServerCommand}

theorem reports_plain (c : SessionCall) : ∀ mark ∈ c.reports, mark.isPlain = true := by
  intro mark hmark
  cases c with
  | message context timestamp command =>
    cases command with
    | STAT d =>
      obtain ⟨event, _, rfl⟩ := List.mem_map.mp hmark
      rfl
    | _ => cases hmark
  | setStreamingSession reference =>
    cases reference with
    | none => cases hmark
    | some h =>
      obtain rfl := List.mem_singleton.mp hmark
      rfl
  | _ => cases hmark

/-- The marks of a call that does not make the session drain. -/
theorem marks_eq (hwritten : (s.call c).written = s.written ++ commands)
    (hstate : s.state = .draining ∨ (s.call c).state ≠ .draining) :
    s.marks c = c.reports ++ commands.map fun command => .sent command s.timeOffset := by
  have hnot : ¬ (s.state ≠ .draining ∧ (s.call c).state = .draining) := by
    rintro ⟨hs, hs'⟩
    exact hstate.elim hs (fun h => h hs')
  rw [marks, if_neg hnot, hwritten, List.drop_left, List.append_nil]

/-- The marks of a call that makes the session drain. -/
theorem marks_drains (hwritten : (s.call c).written = s.written ++ commands)
    (hs : s.state ≠ .draining) (hs' : (s.call c).state = .draining) :
    s.marks c = c.reports ++ (commands.map fun command => .sent command s.timeOffset) ++
      [.drained] := by
  rw [marks, if_pos ⟨hs, hs'⟩, hwritten, List.drop_left]

theorem sent_plain (h : ∀ command ∈ commands, command.isStart = false ∧ command.isUnpause = false)
    (timeOffset : Option ℤ) :
    ∀ mark ∈ commands.map fun command => Mark.sent command timeOffset, mark.isPlain = true := by
  intro mark hmark
  obtain ⟨command, hc, rfl⟩ := List.mem_map.mp hmark
  obtain ⟨hstart, hunpause⟩ := h command hc
  simp [Mark.isPlain, Mark.isStart, Mark.isUnpause, Mark.isDrained, hstart, hunpause]

/-- **A call that starts nothing**: it leaves the state, and backs the flags it sets. -/
theorem call_quiet (h : Disciplined s log) (c : SessionCall)
    (hwritten : (s.call c).written = s.written ++ commands)
    (hcommands : ∀ command ∈ commands, command.isStart = false ∧ command.isUnpause = false)
    (hstate : (s.call c).state = s.state)
    (hsession : (s.call c).streamingSession.isSome = true →
      s.streamingSession.isSome = true ∨ .attached ∈ c.reports)
    (hready : (s.call c).clientBufferIsReady = true →
      s.clientBufferIsReady = true ∨ .received .STMl ∈ c.reports) :
    Disciplined (s.call c) (log ++ s.marks c) := by
  have hmarks : s.marks c = c.reports ++ commands.map fun command => .sent command s.timeOffset := by
    refine marks_eq hwritten ?_
    rw [hstate]
    exact Decidable.em _
  rw [hmarks]
  refine h.quiet (fun mark hmark => ?_) hstate (fun hsome => ?_) (fun hbuffer => ?_)
  · rcases List.mem_append.mp hmark with hmark | hmark
    · exact reports_plain c mark hmark
    · exact sent_plain hcommands s.timeOffset mark hmark
  · exact (hsession hsome).imp id (List.mem_append_left _)
  · exact (hready hbuffer).imp id (List.mem_append_left _)

/-- **A call that ends the stream**, without a start. -/
theorem call_ends (h : Disciplined s log) (c : SessionCall)
    (hwritten : (s.call c).written = s.written ++ commands)
    (hcommands : ∀ command ∈ commands, command.isStart = false ∧ command.isUnpause = false)
    (hstate : (s.call c).state = .draining ∨ (s.call c).state = .stopped) :
    Disciplined (s.call c) (log ++ s.marks c) := by
  refine h.ends (fun mark hmark => ?_) hstate
  rw [marks, hwritten, List.drop_left] at hmark
  rcases List.mem_append.mp hmark with hmark | hmark
  · have hplain : mark.isPlain = true := by
      rcases List.mem_append.mp hmark with hmark | hmark
      · exact reports_plain c mark hmark
      · exact sent_plain hcommands s.timeOffset mark hmark
    exact ⟨Mark.plain_start mark hplain, Mark.plain_unpause mark hplain⟩
  · split at hmark
    · obtain rfl := List.mem_singleton.mp hmark
      exact ⟨rfl, rfl⟩
    · cases hmark

/-- The session is prepared, by the Streamer or by the first chunk. -/
theorem call_prepared (h : Disciplined s log) (c : SessionCall) {rate : ℕ}
    (hs : s.state = .started) (hreports : c.reports = [])
    (hcall : s.call c = (s.setSamplingRate rate).stateChangeToPreparing.setState .preparing) :
    Disciplined (s.call c) (log ++ s.marks c) := by
  have hwritten : (s.call c).written = s.written ++
      [.start s.formatSelection s.streamingPort rate s.clientID] := by
    rw [hcall]
    rfl
  rw [marks_eq hwritten (by rw [hcall]; simp), hreports, hcall]
  exact h.prepared hs rate s.timeOffset

theorem prepare_disciplined (h : Disciplined s log) (context : Context) (rate : ℕ) :
    Disciplined (s.prepare context rate) (log ++ s.marks (.prepare context rate)) := by
  have heq : s.call (.prepare context rate) = s.prepare context rate := rfl
  rw [prepare_eq] at heq
  by_cases hs : s.state = .started ∧ rate ≠ 0
  · rw [if_pos hs] at heq
    exact call_prepared h _ hs.1 rfl heq
  · rw [if_neg hs] at heq
    have hsame : ∀ s' : CommandSession, s' = s ∨ s' = s.setSamplingRate rate →
        s'.written = s.written ++ [] ∧ s'.state = s.state ∧
          s'.streamingSession = s.streamingSession ∧
          s'.clientBufferIsReady = s.clientBufferIsReady := by
      rintro s' (rfl | rfl) <;> simp [setSamplingRate]
    have hcall : s.call (.prepare context rate) = s ∨
        s.call (.prepare context rate) = s.setSamplingRate rate := by
      split at heq
      · exact Or.inl heq
      · exact Or.inr heq
    obtain ⟨hwritten, hstate, hsession, hready⟩ := hsame _ hcall
    exact call_quiet h _ hwritten (List.forall_mem_nil _) hstate
      (fun hsome => Or.inl (hsession ▸ hsome)) (fun hbuffer => Or.inl (hready ▸ hbuffer))

theorem stop_disciplined (h : Disciplined s log) (context : Context) :
    Disciplined (s.stop context) (log ++ s.marks (.stop context)) := by
  have hcommands : ∃ commands, (s.stop context).written = s.written ++ commands ∧
      ∀ command ∈ commands, command.isStart = false ∧ command.isUnpause = false := by
    rw [stop_eq]
    split
    · exact ⟨[], (List.append_nil _).symm, List.forall_mem_nil _⟩
    · split
      · exact ⟨[], (List.append_nil _).symm, List.forall_mem_nil _⟩
      · exact ⟨[.stop], rfl, List.forall_mem_singleton.mpr ⟨rfl, rfl⟩⟩
  obtain ⟨commands, hwritten, hplain⟩ := hcommands
  exact call_ends h (.stop context) hwritten hplain (Or.inr (stop_state context s))

/-! ### Messages and pings -/

/-- Some plain commands are sent; the state and the flags stay. -/
structure Unstarted (s s' : CommandSession) (commands : List ServerCommand) : Prop where
  written : s'.written = s.written ++ commands
  plain : ∀ command ∈ commands, command.isStart = false ∧ command.isUnpause = false
  state : s'.state = s.state
  streamingSession : s'.streamingSession = s.streamingSession
  clientBufferIsReady : s'.clientBufferIsReady = s.clientBufferIsReady

theorem Unstarted.nothing {s s' : CommandSession} (hwritten : s'.written = s.written)
    (hstate : s'.state = s.state) (hsession : s'.streamingSession = s.streamingSession)
    (hready : s'.clientBufferIsReady = s.clientBufferIsReady) : Unstarted s s' [] :=
  ⟨by simp [hwritten], List.forall_mem_nil _, hstate, hsession, hready⟩

theorem Unstarted.one {s s' : CommandSession} {command : ServerCommand}
    (hplain : command.isStart = false ∧ command.isUnpause = false)
    (hwritten : s'.written = s.written ++ [command])
    (hstate : s'.state = s.state) (hsession : s'.streamingSession = s.streamingSession)
    (hready : s'.clientBufferIsReady = s.clientBufferIsReady) : Unstarted s s' [command] :=
  ⟨hwritten, List.forall_mem_singleton.mpr hplain, hstate, hsession, hready⟩

theorem call_unstarted (h : Disciplined s log) (c : SessionCall)
    (hc : Unstarted s (s.call c) commands) : Disciplined (s.call c) (log ++ s.marks c) :=
  call_quiet h c hc.written hc.plain hc.state (fun hsome => Or.inl (hc.streamingSession ▸ hsome))
    (fun hready => Or.inl (hc.clientBufferIsReady ▸ hready))

theorem call_nothing (h : Disciplined s log) (c : SessionCall) {s' : CommandSession}
    (hcall : s.call c = s') (hwritten : s'.written = s.written) (hstate : s'.state = s.state)
    (hsession : s'.streamingSession = s.streamingSession)
    (hready : s'.clientBufferIsReady = s.clientBufferIsReady) :
    Disciplined (s.call c) (log ++ s.marks c) := by
  have hnothing : Unstarted s (s.call c) [] := by
    rw [hcall]
    exact .nothing hwritten hstate hsession hready
  exact call_unstarted h c hnothing

theorem stat_disciplined (h : Disciplined s log) (context : Context) (timestamp : Timestamp)
    (d : STAT) :
    Disciplined (s.call (.message context timestamp (.STAT d)))
      (log ++ s.marks (.message context timestamp (.STAT d))) := by
  have hcall : s.call (.message context timestamp (.STAT d)) =
      (s.onSTAT context timestamp d).1 := rfl
  rw [onSTAT] at hcall
  cases hevent : StatEvent.find d.event with
  | none =>
    rw [hevent] at hcall
    exact call_nothing h _ hcall rfl rfl rfl rfl
  | some event =>
    rw [hevent] at hcall
    cases event with
    | STMf =>
      change _ = ({ s with measuringLatency := false }).onSTMf context at hcall
      rw [onSTMf, processEvent_flushed] at hcall
      by_cases hd : s.state = .draining
      · rw [if_pos hd] at hcall
        have hwritten : (s.call (.message context timestamp (.STAT d))).written =
            s.written ++ [] := by
          simp [hcall, setState]
        have hmarks : s.marks (.message context timestamp (.STAT d)) = [.received .STMf] := by
          rw [marks_eq hwritten (Or.inl hd)]
          simp [SessionCall.reports, hevent]
        rw [hmarks]
        exact h.flushed (by simp [hcall])
      · rw [if_neg hd] at hcall
        split at hcall <;> exact call_nothing h _ hcall rfl rfl rfl rfl
    | STMl =>
      change _ = { s with measuringLatency := false, clientBufferIsReady := true } at hcall
      have hwritten : (s.call (.message context timestamp (.STAT d))).written =
          s.written ++ [] := by
        simp [hcall]
      refine call_quiet h _ hwritten (List.forall_mem_nil _) ?_ (fun hsome => ?_) (fun _ => ?_)
      · rw [hcall]
      · rw [hcall] at hsome
        exact Or.inl hsome
      · simp [SessionCall.reports, hevent]
    | STMt =>
      obtain ⟨_, _, _, _, _, _, hSTMt⟩ := onSTMt_eq context timestamp d s
      change _ = s.onSTMt context timestamp d at hcall
      rw [hSTMt] at hcall
      exact call_nothing h _ hcall rfl rfl rfl rfl
    | STMu =>
      change _ = onSTMu { s with measuringLatency := false } at hcall
      rw [onSTMu] at hcall
      by_cases hd : s.state = .draining
      · rw [if_pos hd] at hcall
        have hstop : Unstarted s (s.call (.message context timestamp (.STAT d))) [.stop] := by
          rw [hcall]
          exact .one ⟨rfl, rfl⟩ rfl rfl rfl rfl
        exact call_unstarted h _ hstop
      · rw [if_neg hd] at hcall
        exact call_nothing h _ hcall rfl rfl rfl rfl
    | _ =>
      change _ = { s with measuringLatency := false } at hcall
      exact call_nothing h _ hcall rfl rfl rfl rfl

/-- What the first `HELO` makes the server send. -/
theorem sendHandshake_unstarted (helo : HELO) (s : CommandSession) :
    Unstarted s (s.sendHandshake helo) (handshakeCommands s.gain ++ [.stop]) := by
  refine ⟨?_, ?_, ?_, ?_, ?_⟩ <;>
    simp [sendHandshake, handshakeCommands, schedulePing, send, ServerCommand.isStart,
      ServerCommand.isUnpause]

theorem helo_disciplined (h : Disciplined s log) (context : Context) (timestamp : Timestamp)
    (helo : HELO) :
    Disciplined (s.call (.message context timestamp (.HELO helo)))
      (log ++ s.marks (.message context timestamp (.HELO helo))) := by
  have hcall : s.call (.message context timestamp (.HELO helo)) =
      ({ s with measuringLatency := false }).onHELO context helo := rfl
  rw [onHELO] at hcall
  split at hcall
  · exact call_nothing h _ hcall rfl rfl rfl rfl
  · have hsent := sendHandshake_unstarted helo { s with measuringLatency := false }
    rw [processEvent_handshake] at hcall
    split at hcall
    · have hwritten : (s.call (.message context timestamp (.HELO helo))).written =
          s.written ++ (handshakeCommands s.gain ++ [.stop]) := by
        rw [hcall]
        exact hsent.written
      refine call_ends h _ hwritten hsent.plain ?_
      rw [hcall]
      exact Or.inl rfl
    · have hrejected : Unstarted s (s.call (.message context timestamp (.HELO helo)))
          (handshakeCommands s.gain ++ [.stop]) := by
        rw [hcall]
        exact ⟨hsent.written, hsent.plain, hsent.state, hsent.streamingSession,
          hsent.clientBufferIsReady⟩
      exact call_unstarted h _ hrejected

theorem pingHandler_unstarted (context : Context) (s : CommandSession) :
    ∃ commands, Unstarted s (s.onPingHandler context) commands := by
  rw [onPingHandler]
  split
  · exact ⟨[], .nothing rfl rfl rfl rfl⟩
  · exact ⟨_, .one ⟨rfl, rfl⟩ rfl rfl rfl rfl⟩

/-! ### The delivery of a chunk -/

/-- Changes that do not make the session drain, with the commands they send. -/
structure Leads (timeOffset : Option ℤ) (s : CommandSession) (commands : List ServerCommand)
    (s' : CommandSession) : Prop where
  written : s'.written = s.written ++ commands
  disciplined : ∀ log, Disciplined s log →
    Disciplined s' (log ++ commands.map fun command => .sent command timeOffset)

/-- A streaming session buffers first, if it was preparing. -/
theorem buffering_leads (timeOffset : Option ℤ) (context : Context)
    (hstreaming : s.isStreaming = true) :
    Leads timeOffset s [] ((s.joinStream context).tryBuffering context) := by
  have hs : s.state ≠ .started := by
    intro hs
    simp [isStreaming, hs] at hstreaming
  rw [tryBuffering_joinStream_of_ne context hs]
  refine ⟨?_, fun log h => ?_⟩
  · split <;> simp [setState]
  · rw [List.map_nil, List.append_nil]
    split
    · rename_i hready
      exact h.buffered hready.1
    · exact h

/-- Then it plays, if it is ready to. -/
theorem playing_leads (context : Context) (s : CommandSession) :
    ∃ commands, Leads s.timeOffset s commands (s.tryPlaying context) := by
  have hstay : Leads s.timeOffset s [] s :=
    ⟨by simp, fun log h => by rwa [List.map_nil, List.append_nil]⟩
  rcases tryPlaying_cases context s with ⟨hbuffering, hready, hplayed⟩ | hsame
  · rw [hplayed]
    refine ⟨[.unpauseAt (context.streamer.playbackStartTime.minus (s.timeOffset.getD 0))], rfl,
      fun log h => ?_⟩
    exact h.played hbuffering hready context _ rfl
  · rw [hsame]
    exact ⟨[], hstay⟩

theorem Leads.trans {timeOffset : Option ℤ} {s s' s'' : CommandSession}
    {commands commands' : List ServerCommand} (h : Leads timeOffset s commands s')
    (h' : Leads timeOffset s' commands' s'') : Leads timeOffset s (commands ++ commands') s'' := by
  refine ⟨by rw [h'.written, h.written, List.append_assoc], fun log hlog => ?_⟩
  rw [List.map_append, ← List.append_assoc]
  exact h'.disciplined _ (h.disciplined log hlog)

theorem chunk_leads (context : Context) (hstreaming : s.isStreaming = true) :
    ∃ commands, Leads s.timeOffset s commands
      (((s.joinStream context).tryBuffering context).tryPlaying context) := by
  have hoffset : ((s.joinStream context).tryBuffering context).timeOffset = s.timeOffset :=
    (Changes.sameMeasurement ((joinStream_changes context s).trans
      (tryBuffering_changes context _))).timeOffset
  obtain ⟨commands, hplaying⟩ := playing_leads context ((s.joinStream context).tryBuffering context)
  rw [hoffset] at hplaying
  exact ⟨[] ++ commands, (buffering_leads s.timeOffset context hstreaming).trans hplaying⟩

/-- A call of a session that is streaming: it leads to a state that is not draining. -/
theorem call_leads (h : Disciplined s log) (c : SessionCall) (hreports : c.reports = [])
    {s' : CommandSession} (hleads : Leads s.timeOffset s commands s') (hs' : s'.state ≠ .draining)
    (hwritten : (s.call c).written = s'.written) (hstate : (s.call c).state = s'.state)
    (hsession : (s.call c).streamingSession = s'.streamingSession)
    (hready : (s.call c).clientBufferIsReady = s'.clientBufferIsReady) :
    Disciplined (s.call c) (log ++ s.marks c) := by
  rw [marks_eq (hwritten.trans hleads.written) (Or.inr (hstate ▸ hs')), hreports, List.nil_append]
  exact (hleads.disciplined log h).same hstate hsession hready

/-- A chunk for a session that takes part in the stream. -/
theorem streaming_disciplined (h : Disciplined s log) (context : Context) (answer : Bool)
    (chunk : Chunk) (hstreaming : s.isStreaming = true) :
    Disciplined (s.call (.consumeChunk context answer chunk))
      (log ++ s.marks (.consumeChunk context answer chunk)) := by
  have hcall : s.call (.consumeChunk context answer chunk) =
      (s.consumeChunk context answer chunk).2 := rfl
  rw [consumeChunk_eq] at hcall
  dsimp only at hcall
  obtain ⟨commands, hleads⟩ := chunk_leads context hstreaming
  have hplaying := tryPlaying_state context ((isStreaming_iff context s).mp hstreaming)
  generalize ((s.joinStream context).tryBuffering context).tryPlaying context = s' at *
  have hs' : s'.state ≠ .draining := by
    rcases hplaying with hs' | hs' <;> simp [hs']
  rw [if_pos hstreaming] at hcall
  split at hcall
  · exact call_leads h _ rfl hleads hs' (by rw [hcall]) (by rw [hcall]) (by rw [hcall])
      (by rw [hcall])
  · rw [chunkConsumed] at hcall
    split at hcall
    · -- the end of the stream: the session drains once the chunk is delivered
      rw [processEvent_drain context _ hplaying] at hcall
      have hs : s.state ≠ .draining := by
        intro hs
        simp [isStreaming, hs] at hstreaming
      have hwritten : (s.call (.consumeChunk context answer chunk)).written =
          s.written ++ commands := by
        rw [hcall]
        exact hleads.written
      rw [marks_drains hwritten hs (by rw [hcall]; rfl), ← List.append_assoc]
      refine Disciplined.ends (s := s') ?_ (by simp [Mark.isStart, Mark.isUnpause]) ?_
      · exact hleads.disciplined log h
      · rw [hcall]
        exact Or.inl rfl
    · exact call_leads h _ rfl hleads hs' (by rw [hcall]) (by rw [hcall]) (by rw [hcall])
        (by rw [hcall])

/-- A chunk for a session that joins the stream prepares it. -/
theorem joining_disciplined (h : Disciplined s log) (context : Context) (answer : Bool)
    (chunk : Chunk) (hs : s.state = .started) (hstreaming : ¬ s.isStreaming = true) :
    Disciplined (s.call (.consumeChunk context answer chunk))
      (log ++ s.marks (.consumeChunk context answer chunk)) := by
  have hprepare : s.call (.consumeChunk context answer chunk) =
      s.prepare context context.streamer.samplingRate := by
    show (s.consumeChunk context answer chunk).2 = _
    rw [consumeChunk_eq]
    dsimp only
    rw [if_neg hstreaming, tryBuffering_joinStream_eq context hs]
  have hmarks : s.marks (.consumeChunk context answer chunk) =
      s.marks (.prepare context context.streamer.samplingRate) := by
    rw [marks, marks, hprepare]
    rfl
  rw [hmarks, hprepare]
  exact prepare_disciplined h context _

/-- **The delivery of a chunk.** -/
theorem consumeChunk_disciplined (h : Disciplined s log) (context : Context) (answer : Bool)
    (chunk : Chunk) :
    Disciplined (s.call (.consumeChunk context answer chunk))
      (log ++ s.marks (.consumeChunk context answer chunk)) := by
  by_cases hstreaming : s.isStreaming = true
  · exact streaming_disciplined h context answer chunk hstreaming
  · by_cases hs : s.state = .started
    · exact joining_disciplined h context answer chunk hs hstreaming
    · -- the session is not in the stream, and nothing changes
      have hcall : s.call (.consumeChunk context answer chunk) = s := by
        show (s.consumeChunk context answer chunk).2 = s
        rw [consumeChunk_eq]
        dsimp only
        rw [if_neg hstreaming, tryBuffering_joinStream_of_ne context hs, if_neg]
        rintro ⟨hpreparing, hready⟩
        simp [isStreaming, hpreparing, hready] at hstreaming
      exact call_nothing h _ hcall rfl rfl rfl rfl

/-! ### Runs -/

/-- **Every call keeps the discipline.** -/
theorem call_disciplined (h : Disciplined s log) (c : SessionCall) :
    Disciplined (s.call c) (log ++ s.marks c) := by
  cases c with
  | buffered ring => exact call_nothing h _ rfl rfl rfl rfl rfl
  | message context timestamp command =>
    cases command with
    | STAT d => exact stat_disciplined h context timestamp d
    | HELO helo => exact helo_disciplined h context timestamp helo
    | _ => exact call_nothing h _ rfl rfl rfl rfl rfl
  | unreadable => exact call_nothing h _ rfl rfl rfl rfl rfl
  | pingTimer context =>
    have hping : Unstarted s (s.onPingTimer context) _ := .one ⟨rfl, rfl⟩ rfl rfl rfl rfl
    exact call_unstarted h (.pingTimer context) hping
  | pingHandler context =>
    obtain ⟨_, hping⟩ := pingHandler_unstarted context s
    exact call_unstarted h (.pingHandler context) hping
  | prepare context rate => exact prepare_disciplined h context rate
  | setStreamingSession reference =>
    have hwritten : (s.call (.setStreamingSession reference)).written = s.written ++ [] := by
      simp [call, setStreamingSession]
    refine call_quiet h _ hwritten (List.forall_mem_nil _) rfl (fun hsome => Or.inr ?_) Or.inl
    cases reference with
    | none => cases hsome
    | some h => exact List.mem_singleton.mpr rfl
  | consumeChunk context answer chunk => exact consumeChunk_disciplined h context answer chunk
  | stop context => exact stop_disciplined h context

end Calls

/-- The log of a run of calls, from a session that was just started. -/
def trace (s : CommandSession) (context : Context) (calls : List SessionCall) : List Mark :=
  (tracedSystem.exec (s.start context, []) calls).2

theorem start_disciplined (address : ℕ) (clientID : List UInt8) (streamingPort : ℕ)
    (formatSelection : FormatSelection) (gain : Option ℕ) (now : Timestamp) (context : Context) :
    Disciplined ((create address clientID streamingPort formatSelection gain now).start context)
      [] := by
  refine ⟨justified_nil _, fun hs => ?_, fun b hb => ?_⟩
  · have hstopped : (create address clientID streamingPort formatSelection gain now).state =
        .stopped := rfl
    simp [start_state, hstopped] at hs
  · cases hb

theorem trace_disciplined (s : CommandSession) (log : List Mark) (h : Disciplined s log)
    (calls : List SessionCall) :
    Disciplined (tracedSystem.exec (s, log) calls).1 (tracedSystem.exec (s, log) calls).2 := by
  induction calls generalizing s log with
  | nil => exact h
  | cons c calls ih => exact ih _ _ (call_disciplined h c)

/-- What the sequence of the commands sent to a player looks like. -/
structure CommandDiscipline (log : List Mark) : Prop where
  /-- A playback starts after an `STRM` Start with no other start of a playback in between; since
  that Start an HTTP session was attached and STMl was received, and a time offset is known. -/
  unpause : ∀ before v timeOffset after,
    log = before ++ .sent (.unpause v) timeOffset :: after →
      timeOffset.isSome = true ∧
      ∃ a m b, before = a ++ m :: b ∧ m.isStart = true ∧
        (∀ mark ∈ b, mark.isStart = false ∧ mark.isUnpause = false) ∧
        .attached ∈ b ∧ .received .STMl ∈ b
  /-- Between the beginning of draining and the next Start, STMf was received. -/
  start : ∀ a b m after, log = a ++ .drained :: b ++ m :: after → m.isStart = true →
    .received .STMf ∈ b

theorem Disciplined.commandDiscipline {s : CommandSession} {log : List Mark}
    (h : Disciplined s log) : CommandDiscipline log where
  unpause before v timeOffset after heq := by
    obtain ⟨hoffset, b, hb, hunpause, hattached, hbuffered⟩ := h.justified before _ after heq
    obtain ⟨a, m, rfl, hm, hstart⟩ := since_eq_some.mp hb
    exact ⟨hoffset, a, m, b, rfl, hm, fun mark hmark => ⟨hstart mark hmark, hunpause mark hmark⟩,
      hattached, hbuffered⟩
  start a b m after heq hm := by
    cases m with
    | sent command timeOffset =>
      cases command with
      | start format port rate clientID =>
        have hprecedes := h.justified (a ++ .drained :: b) _ after heq
        obtain ⟨c, hc, hsub⟩ := since_of_mem (p := Mark.isDrained) a (x := .drained) rfl b
        exact hsub _ (hprecedes c hc)
      | _ => cases hm
    | _ => cases hm

/-- **The discipline of the commands sent to a player**, over every sequence of calls. -/
theorem command_trace (address : ℕ) (clientID : List UInt8) (streamingPort : ℕ)
    (formatSelection : FormatSelection) (gain : Option ℕ) (now : Timestamp) (context : Context)
    (calls : List SessionCall) :
    CommandDiscipline ((create address clientID streamingPort formatSelection gain now).trace
      context calls) :=
  (trace_disciplined _ [] (start_disciplined address clientID streamingPort formatSelection gain now
    context) calls).commandDiscipline

end CommandSession

end SlimStreamer

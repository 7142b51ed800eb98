import ChannelWire.Core.Counters
import ChannelWire.Gateway.Decoding

/-!
# The counters behind `/core-stats`

The text of a `STATS_RESP` is read back by `gateway_event` (`loads_statsText`), and its numbers are
those of the run so far (`Core.stats_eq_tally`).
-/

namespace ChannelWire
namespace Gateway

open JsonText

/-- The counters of `send_stats`, as the trace has them. -/
def tallied (s : Core.Server) : List (PyStr × ℕ) :=
  let counts := Core.tally s.trace
  [(text "current_connections", counts.currentConnections),
    (text "registered_clients", (Core.slots.filter fun i =>
      (s.clients i).Live ∧ (s.clients i).registered = true).length),
    (text "total_connections", counts.totalConnections),
    (text "channels", s.channels.length),
    (text "channel_messages", counts.channelMessages),
    (text "direct_messages", counts.directMessages),
    (text "malformed_frames", counts.malformedFrames),
    (text "queue_disconnects", counts.queueDisconnects),
    (text "max_queue_bytes", s.maxQueueBytes)]

/-- **The gateway reports the run.**  In every reachable state each counter of the core is the
number of the accepts that got a slot, closes, accepted texts, delivered direct messages, rejected
headers and refused frames so far, and whoever was refused a frame was closed for it.  A rejection
is a turn of `drain_input` that meets an oversized header, and whether a step counts a connection,
a text or a rejection can be seen from the state before it (`Core.CountsInput`): an `accept` counts
if a slot is free, a `SAY` if it is accepted, a turn if such a header stands in front of the buffer,
be it for the first time or again.  A `STATS_RESP` that is enqueued, to whatever client, is decoded to exactly these numbers. -/
theorem core_stats_tell_the_run {s : Core.Server} (h : Core.Reachable s) :
    s.stats = Core.tally s.trace ∧
    s.stats.malformedFrames =
      ((Core.turns s.trace).filter fun turn => turn.request = none).length ∧
    Core.CountsInput s ∧
    (∀ k frame, .refused k frame ∈ s.trace → .closed k .queueOverflow ∈ s.trace) ∧
    ∀ t k frame, Core.Step s t → .enqueued k frame ∈ Core.recorded s t →
      frame.type = ServerMsgType.statsResp.toByte →
      gatewayEvent frame = .ok (.coreStats (numbers (tallied s))) := by
  have hstats := Core.stats_eq_tally h
  have hcounters : counters s = tallied s := by
    unfold counters tallied
    simp only [← hstats]
  refine ⟨hstats, (Core.rejectionsOk h).count, Core.countsInput h,
    Core.refusedAreClosed h.moveReachable, fun t k frame hst he htype => ?_⟩
  have hproduced := Core.Step.produced h hst he
  have hrelays : RelaysUtf8 frame := by
    rintro (hchat | hdm) <;> rw [htype] at *
    · exact absurd (ServerMsgType.toByte_inj.mp hchat) (by decide)
    · exact absurd (ServerMsgType.toByte_inj.mp hdm) (by decide)
  have hdecodes := (decodes_iff_of_produced (Core.channelsOk h.moveReachable)
    (Core.namesOk h.moveReachable) hproduced).mpr hrelays
  rw [← hcounters]
  exact hdecodes.stats htype

/-- Two connections, and one text that was said in the room. -/
theorem core_stats_tell_the_run_room :
    Core.roomWithText.stats = Core.tally Core.roomWithText.trace ∧
      (Core.tally Core.roomWithText.trace).totalConnections = 2 ∧
      (Core.tally Core.roomWithText.trace).channelMessages = 1 ∧
      Core.roomWithText.stats.malformedFrames = 0 := by
  obtain ⟨hstats, hrejected, -⟩ := core_stats_tell_the_run Core.reachable_roomWithText
  refine ⟨hstats, by decide +kernel, by decide +kernel, ?_⟩
  rw [hrejected]
  decide +kernel

end Gateway
end ChannelWire

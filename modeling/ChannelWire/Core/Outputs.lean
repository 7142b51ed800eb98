import ChannelWire.Core.Confinement
import ChannelWire.Core.Turns

/-!
# The frames the server makes

Whatever the clients send, a frame that a step enqueues is one of six kinds: `Produced` lists
them with their payloads.  Three of them answer `WHO`, `LIST` and `STATS`, and their payload is
determined by the state; the texts of a `CHAT` and of a `DM_RECV` are relayed as they came.
-/

namespace ChannelWire
namespace Core

/-- A frame for connection `k`, made in state `s`. -/
inductive Produced (s : Server) (k : ℕ) : Frame → Prop where
  | notice {type : ServerMsgType} (text : Bytes) : type ∈ [ServerMsgType.ok, .error, .system] →
      Produced s k ⟨type.toByte, text⟩
  | chat (i : Slot) {text : Bytes} : text.length ≤ cwTextCap →
      Produced s k ⟨ServerMsgType.chat.toByte, chatPayload (s.clients i) text⟩
  | dm (i : Slot) {text : Bytes} : text.length ≤ cwTextCap →
      Produced s k ⟨ServerMsgType.dmRecv.toByte, dmPayload (s.clients i) text⟩
  | who {i : Slot} {idx : ℕ} {payload : Bytes} : (s.clients i).Live → (s.clients i).conn = k →
      findChannel s (s.clients i).activeChannel = some idx →
      appendLines cwMaxPayloadSize [] ((members s idx).map fun j => (s.clients j).username) =
        some payload → Produced s k ⟨ServerMsgType.whoResp.toByte, payload⟩
  | list {payload : Bytes} : appendLines cwMaxPayloadSize [] s.channels = some payload →
      Produced s k ⟨ServerMsgType.listResp.toByte, payload⟩
  | stats : Produced s k ⟨ServerMsgType.statsResp.toByte, statsText s⟩

section Handlers

variable {s t : Server} {i : Slot} {frame reply : Frame} {k : ℕ}

/-- The one frame of an answer. -/
theorem eq_of_recorded_reply {type : ServerMsgType} {text : Bytes}
    (he : .enqueued k reply ∈ recorded s (safeEnqueueText s i type text)) :
    k = (s.clients i).conn ∧ reply = ⟨type.toByte, text⟩ := by
  have haccepts := ((Enqueues.enqueue i type text).mem_recorded he).1
  rw [safeEnqueueText, enqueueOrDisconnect_of_accepts haccepts, recorded, pushFrame_trace,
    Server.setHeap_trace, List.drop_left, List.mem_singleton] at he
  obtain ⟨rfl, rfl⟩ := Effect.enqueued.inj he
  exact ⟨rfl, rfl⟩

theorem sendWho_produced (hl : (s.clients i).Live)
    (he : .enqueued k reply ∈ recorded s (sendWho s i)) : Produced s k reply := by
  unfold sendWho at he
  split at he
  · obtain ⟨-, rfl⟩ := eq_of_recorded_reply he
    exact .notice _ (by decide)
  · next hfind =>
    split at he
    · obtain ⟨-, rfl⟩ := eq_of_recorded_reply he
      exact .notice _ (by decide)
    · next hlines =>
      obtain ⟨rfl, rfl⟩ := eq_of_recorded_reply he
      exact .who hl rfl hfind hlines

theorem sendList_produced (he : .enqueued k reply ∈ recorded s (sendList s i)) :
    Produced s k reply := by
  unfold sendList at he
  split at he
  · obtain ⟨-, rfl⟩ := eq_of_recorded_reply he
    exact .notice _ (by decide)
  · next hlines =>
    obtain ⟨-, rfl⟩ := eq_of_recorded_reply he
    exact .list hlines

theorem sendStats_produced (he : .enqueued k reply ∈ recorded s (sendStats s i)) :
    Produced s k reply := by
  unfold sendStats at he
  simp only at he
  split_ifs at he
  · obtain ⟨-, rfl⟩ := eq_of_recorded_reply he
    exact .notice _ (by decide)
  · obtain ⟨-, rfl⟩ := eq_of_recorded_reply he
    exact .stats

/-- The requests that are no queries. -/
theorem Ending.produced (h : Ending s i frame t) (hquery : frame.type ∉
      [ClientMsgType.who.toByte, ClientMsgType.list.toByte, ClientMsgType.stats.toByte])
    (he : .enqueued k reply ∈ recorded s t) : Produced s k reply := by
  have hreply : ∀ (u : Server) {type : ServerMsgType} {text : Bytes}, u.trace = s.trace →
      type ∈ [ServerMsgType.ok, .error, .system] →
      Enqueues (Produced s k) s (safeEnqueueText u i type text) := by
    intro u type text htrace htype
    refine (Enqueues.of_trace htrace).trans ((Enqueues.enqueue i type text).mono ?_)
    rintro _ ⟨-, rfl⟩
    exact .notice _ htype
  suffices hall : Enqueues (Produced s k) s t from hall.mem_recorded he
  cases h with
  | refused text => exact hreply s rfl (by decide)
  | registered _ _ | switched _ _ _ _ | left _ _ _ _ => exact hreply _ rfl (by decide)
  | renamed _ _ =>
    refine (hreply (takeName s i _) rfl (by decide)).trans ((Enqueues.broadcastSystem i _).mono ?_)
    rintro ⟨type, text⟩ htype
    obtain rfl : type = ServerMsgType.system.toByte := htype
    exact .notice _ (by decide)
  | joined _ _ hread hensure =>
    obtain ⟨-, -, hs⟩ := readName_eq_some hread
    obtain ⟨-, rfl | ⟨-, rfl⟩⟩ := ensureChannel_channels hs hensure <;>
      exact hreply _ rfl (by decide)
  | said hsay =>
    refine (Enqueues.chatSent ..).mono ?_
    rintro _ rfl
    exact .chat i (Nat.le_of_lt_succ (length_readOneStringPayload _ hsay.read))
  | @sentDm target text hdm _ =>
    obtain ⟨name, hread, -⟩ := hdm.found
    refine (Enqueues.sentDm i target _).mono ?_
    rintro _ (rfl | rfl)
    · exact .dm i (length_readDmPayload _ hread)
    · exact .notice _ (by decide)
  | @lostDm target text hdm _ =>
    obtain ⟨name, hread, -⟩ := hdm.found
    refine (Enqueues.enqueue target .dmRecv _).mono ?_
    rintro _ ⟨-, rfl⟩
    exact .dm i (length_readDmPayload _ hread)
  | queried _ _ htype => exact absurd htype hquery
  | quit _ => exact .disconnect i _

/-- **What a request makes the server send.** -/
theorem handleFrame_produced (hc : ChannelsOk s) (hv : NamesOk s) (hl : (s.clients i).Live)
    (he : .enqueued k reply ∈ recorded s (handleFrame s i frame.type frame.payload)) :
    Produced s k reply := by
  by_cases hquery : frame.type ∈
      [ClientMsgType.who.toByte, ClientMsgType.list.toByte, ClientMsgType.stats.toByte]
  · simp only [List.mem_cons, List.not_mem_nil, or_false] at hquery
    rcases hquery with htype | htype | htype
    · rw [handleFrame, htype, ClientMsgType.ofByte_toByte] at he
      exact sendWho_produced hl he
    · rw [handleFrame, htype, ClientMsgType.ofByte_toByte] at he
      exact sendList_produced he
    · rw [handleFrame, htype, ClientMsgType.ofByte_toByte] at he
      exact sendStats_produced he
  · exact (handleFrame_ending hc hv i frame).produced hquery he

end Handlers

/-- The kinds do not depend on the trace. -/
theorem Produced.of_emit {s : Server} {e : Effect} {k : ℕ} {frame : Frame}
    (h : Produced (s.emit e) k frame) : Produced s k frame := by
  cases h with
  | notice text htype => exact .notice text htype
  | chat i htext => exact .chat i htext
  | dm i htext => exact .dm i htext
  | who hl hk hfind hlines => exact .who hl hk hfind hlines
  | list hlines => exact .list hlines
  | stats => exact .stats

/-- **What a step makes the server send.** -/
theorem Step.produced {s t : Server} (h : Reachable s) (hst : Step s t) {k : ℕ} {frame : Frame}
    (he : .enqueued k frame ∈ recorded s t) : Produced s k frame := by
  rcases hst.quiet_or_turn with ⟨es, htrace, hes⟩ | ⟨i, turn, hturn⟩
  · rw [recorded, htrace, List.drop_left] at he
    exact absurd (.inr (List.cons_ne_nil _ _)) (hes _ he)
  · have hrequest := hturn.request
    have hdrain := drainTurn_eq s i
    cases hreq : turn.request with
    | none =>
      rw [hreq] at hrequest
      rw [hrequest] at hdrain
      rw [hturn.step, hdrain] at he
      have hrejected : Enqueues (Produced s k) s (rejectHeader s i) := by
        refine (Enqueues.trans (.of_trace (Server.setStats_trace s _))
          (.emit fun _ _ h => by cases h)).trans ((Enqueues.enqueue i .error _).mono ?_)
        rintro _ ⟨-, rfl⟩
        exact .notice _ (by decide)
      exact hrejected.mem_recorded he
    | some request =>
      rw [hreq] at hrequest
      obtain ⟨n, hhead⟩ := hrequest
      rw [hhead] at hdrain
      rw [hturn.step, hdrain, recorded, serveFrame_trace] at he
      obtain ⟨es, htrace⟩ : ∃ es, (handleFrame (s.emit (.handled (s.clients i).conn request)) i
          request.type request.payload).trace =
          (s.emit (.handled (s.clients i).conn request)).trace ++ es := by
        obtain ⟨es, hsaid⟩ := (handleFrame_actions (i := i)
          (s := s.emit (.handled (s.clients i).conn request)) request.type request.payload
          hturn.live).said
        exact ⟨es, hsaid.trace⟩
      rw [htrace, Server.emit_trace, List.append_assoc, List.drop_left] at he
      have hmem : .enqueued k frame ∈ recorded (s.emit (.handled (s.clients i).conn request))
          (handleFrame (s.emit (.handled (s.clients i).conn request)) i request.type
            request.payload) := by
        rw [recorded, htrace, List.drop_left]
        rcases List.mem_cons.mp he with he | he
        · cases he
        · exact he
      exact (handleFrame_produced ((channelsOk h.moveReachable).emit _)
        ((namesOk h.moveReachable).emit _) hturn.live hmem).of_emit

/-! ## Runs -/

/-- Every frame that was enqueued was produced in a state of the run. -/
theorem exists_produced {s : Server} (h : Reachable s) {k : ℕ} {frame : Frame}
    (he : .enqueued k frame ∈ s.trace) : ∃ t, Reachable t ∧ Produced t k frame := by
  induction h with
  | init hinit =>
    obtain ⟨maxQueueBytes, heap, -, rfl⟩ := hinit
    exact absurd he List.not_mem_nil
  | @step s t hs hst ih =>
    obtain ⟨es, hes⟩ := hst.trace_prefix
    rw [← hes] at he
    rcases List.mem_append.mp he with hold | hnew
    · exact ih hold
    · refine ⟨s, hs, hst.produced hs ?_⟩
      rw [recorded, ← hes, List.drop_left]
      exact hnew

theorem mem_trace_of_mem_enqueuedTo {k : ℕ} {frame : Frame} {trace : List Effect}
    (h : frame ∈ enqueuedTo k trace) : .enqueued k frame ∈ trace := by
  obtain ⟨e, he, hframe⟩ := List.mem_flatMap.mp h
  cases e with
  | enqueued c f =>
    rw [Effect.enqueuedTo] at hframe
    split_ifs at hframe with hc
    · obtain rfl := List.mem_singleton.mp hframe
      exact hc ▸ he
    · cases hframe
  | _ => cases hframe

end Core
end ChannelWire

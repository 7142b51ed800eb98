import ChannelWire.Core.Endings
import ChannelWire.Core.Runs

/-!
# One answer for each request

A client that is still connected when `handle_frame` returns got one answer: an `OK`, an
`ERROR`, one of the three responses, or the echo of its own text.  There is one exception.
When the queue of the addressee of a `DM` has no room, `handle_dm` disconnects the addressee and
returns at once, and the sender is told nothing; `answered_once_iff` says that this is the only
way to stay without an answer.
-/

namespace ChannelWire
namespace Core

open LinkedQueue

/-! ## What counts as an answer -/

/-- The type byte of a queued frame. -/
def OutFrame.type (f : OutFrame) : UInt8 := f.data.headD 0

@[simp] theorem OutFrame.type_make (type : ServerMsgType) (payload : Bytes) :
    (OutFrame.make type payload).type = type.toByte := rfl

/-- The frame answers a request of the given type. -/
def isAnswer (request : UInt8) (f : OutFrame) : Bool :=
  [ServerMsgType.ok, .error, .whoResp, .listResp, .statsResp].any (fun t => t.toByte == f.type) ||
    (request == ClientMsgType.say.toByte && f.type == ServerMsgType.chat.toByte)

/-- If the client of slot `i` is live in `t`, then from `s` to `t` exactly one answer was appended
to its queue. -/
def AnsweredBy (request : UInt8) (i : Slot) (s t : Server) : Prop :=
  (t.clients i).Live → ∃ new, (t.clients i).out.toList = (s.clients i).out.toList ++ new ∧
    new.countP (isAnswer request) = 1

/-- **The request is answered**: if the client is still connected when `handle_frame` returns, the
call has appended exactly one answer to its queue. -/
def AnsweredOnce (s : Server) (i : Slot) (type : UInt8) (payload : Bytes) : Prop :=
  AnsweredBy type i s (handleFrame s i type payload)

theorem isAnswer_make {request : UInt8} {type : ServerMsgType} (payload : Bytes)
    (h : type ∈ [ServerMsgType.ok, .error, .whoResp, .listResp, .statsResp]) :
    isAnswer request (OutFrame.make type payload) = true := by
  rw [isAnswer, Bool.or_eq_true]
  refine .inl (List.any_eq_true.mpr ⟨type, h, ?_⟩)
  rw [OutFrame.type_make, beq_self_eq_true]

theorem isAnswer_chat (payload : Bytes) :
    isAnswer ClientMsgType.say.toByte (OutFrame.make .chat payload) = true := rfl

theorem isAnswer_dmRecv (payload : Bytes) :
    isAnswer ClientMsgType.dm.toByte (OutFrame.make .dmRecv payload) = false := rfl

/-! ## Replies -/

/-- A single frame that answers, enqueued in a state in which the queue is the old one. -/
theorem AnsweredBy.enqueue {request : UInt8} {i : Slot} {s t : Server} {type : ServerMsgType}
    {payload : Bytes} (hans : isAnswer request (OutFrame.make type payload) = true)
    (hout : (t.clients i).out = (s.clients i).out) :
    AnsweredBy request i s (enqueueOrDisconnect t i type payload) := by
  intro hl
  refine ⟨[OutFrame.make type payload], ?_, ?_⟩
  · rw [enqueueOrDisconnect_clients_self hl, ← hout]
    exact Queue.toList_push ..
  · rw [List.countP_singleton, if_pos hans]

theorem AnsweredBy.reply {request : UInt8} {i : Slot} {s t : Server} {type : ServerMsgType}
    {text : Bytes} (htype : type ∈ [ServerMsgType.ok, .error, .whoResp, .listResp, .statsResp])
    (hout : (t.clients i).out = (s.clients i).out) :
    AnsweredBy request i s (safeEnqueueText t i type text) :=
  .enqueue (isAnswer_make text htype) hout

/-- What happens elsewhere does not change the answer. -/
theorem AnsweredBy.elsewhere {request : UInt8} {i : Slot} {s t u : Server} {k : ℕ}
    (h : AnsweredBy request i s t) (htu : Elsewhere k t u)
    (hk : (t.clients i).Live → (t.clients i).conn = k) : AnsweredBy request i s u := by
  intro hl
  have hl' := (htu.live i hl).1
  rw [htu.clients i hl' (hk hl')]
  exact h hl'

/-! ## Direct messages -/

/-- **The exception**: a well-formed `DM` of a registered client to another one whose queue has
no room for it, or for which `calloc` fails. -/
def DmRefused (s : Server) (i : Slot) (type : UInt8) (payload : Bytes) : Prop :=
  type = ClientMsgType.dm.toByte ∧ (s.clients i).registered = true ∧
    ∃ targetName text target, readDmPayload payload = some (targetName, text) ∧
      findUser s targetName = some target ∧ target ≠ i ∧
      ¬ Accepts s target ([(s.clients i).username, text].map stringField).flatten

/-- The sender of a direct message that is lost is left as it was. -/
theorem DmRefused.clients {s : Server} {i : Slot} {type : UInt8} {payload : Bytes}
    (h : DmRefused s i type payload) (hv : NamesOk s) :
    (handleFrame s i type payload).clients i = s.clients i := by
  obtain ⟨rfl, hr, targetName, text, target, hread, hfind, hne, hfull⟩ := h
  obtain ⟨heap, hq⟩ := enqueuePayload_of_not_accepts .dmRecv hfull
  show (handleDm s i payload).clients i = s.clients i
  unfold handleDm
  rw [if_neg (by simp [hr])]
  simp only [hread, hfind, enqueueStrings, cwWriteStrings_dm hv hread, dmPayload, hq]
  rw [overflowDisconnect_clients, Function.update_of_ne (Ne.symm hne)]
  rfl

/-! ## The ends of a request -/

section Endings

variable {s t : Server} {i : Slot} {frame : Frame}

/-- The echo of an accepted text.  The sender is a member of its active channel, so one turn of
the loop is its own. -/
theorem chatSent_answered {idx : ℕ} (text : Bytes) (hn : Numbered s)
    (hm : (s.clients i).isMember idx = true) :
    AnsweredBy ClientMsgType.say.toByte i s (chatSent s i idx text) := by
  have hl := (Client.isMember_iff.mp hm).1
  obtain ⟨u, hsu, huv⟩ := chatLoop_turn (s := announce s i idx
    ⟨(s.clients i).activeChannel, (s.clients i).username, text⟩) idx
    (chatPayload (s.clients i) text) (hn.onlyAt hl)
  have hu : u.clients i = s.clients i := hsu.clients i hl rfl
  rw [chatTurn, if_pos (by rw [hu]; exact hm)] at huv
  have hecho : AnsweredBy ClientMsgType.say.toByte i s
      (enqueueOrDisconnect u i .chat (chatPayload (s.clients i) text)) :=
    .enqueue (isAnswer_chat (chatPayload (s.clients i) text)) (by rw [hu])
  have hloop := hecho.elsewhere huv fun hl' => by rw [enqueueOrDisconnect_clients_self hl', hu]
  intro hl'
  rw [chatSent, Server.setStats_clients] at hl' ⊢
  exact hloop hl'

/-- A client that sends a direct message to itself gets its own `DM_RECV` first, which is no
answer. -/
theorem sentDm_answered {target : Slot} (payload : Bytes)
    (hroom : Accepts s target payload) :
    AnsweredBy ClientMsgType.dm.toByte i s (safeEnqueueText
      (countDm (enqueueOrDisconnect s target .dmRecv payload)) i .ok sentText) := by
  rw [enqueueOrDisconnect_of_accepts hroom]
  rcases eq_or_ne target i with rfl | hne
  · intro hl
    refine ⟨[OutFrame.make .dmRecv payload, OutFrame.make .ok sentText], ?_, ?_⟩
    · rw [safeEnqueueText, enqueueOrDisconnect_clients_self hl]
      simp only [countDm, Server.setStats_clients, pushFrame_clients, Function.update_self,
        Server.setHeap_clients, Queue.toList_push, List.append_assoc]
      rfl
    · rw [List.countP_cons_of_neg (by rw [isAnswer_dmRecv]; decide),
        List.countP_singleton, if_pos (isAnswer_make _ (by decide))]
  · refine .reply (by decide) ?_
    rw [countDm, Server.setStats_clients, pushFrame_clients, Function.update_of_ne (Ne.symm hne)]
    rfl

theorem Ending.answered (h : Ending s i frame t) (hn : Numbered s) (hc : ChannelsOk s)
    (hl : (s.clients i).Live) (hquit : frame.type ≠ ClientMsgType.quit.toByte)
    (hroom : ¬ DmRefused s i frame.type frame.payload) : AnsweredBy frame.type i s t := by
  cases h with
  | refused text => exact .reply (by decide) rfl
  | registered _ _ => exact .reply (by decide) (by rw [takeName, Server.setClient_self])
  | @renamed name _ _ =>
    -- the notice of the new name goes to the other members only
    refine AnsweredBy.elsewhere (k := (s.clients i).conn) (.reply (by decide) ?_)
      (broadcastSystem_elsewhere _ ((hn.onlyAt hl).of_clients fun j hne => ?_)) fun hl' => ?_
    · rw [takeName, Server.setClient_self]
    · rw [safeEnqueueText, enqueueOrDisconnect_clients_of_ne _ _ hne, takeName,
        Server.setClient_of_ne hne]
    · rw [safeEnqueueText, enqueueOrDisconnect_clients_self hl', takeName, Server.setClient_self]
  | @joined u idx name _ _ _ hensure =>
    have hclients := ensureChannel_clients s name
    rw [hensure] at hclients
    exact .reply (by decide) (by rw [enterChannel, Server.setClient_self, hclients])
  | switched _ _ _ _ => exact .reply (by decide) (by rw [Server.setClient_self])
  | left _ _ _ _ => exact .reply (by decide) (by rw [exitChannel, Server.setClient_self])
  | @said idx text hsay =>
    obtain ⟨idx', hfind, hj⟩ := hc.findChannel_active (hc.activeChannel_ne_nil hsay.channel)
    obtain rfl : idx' = idx := Option.some.inj (hfind.symm.trans hsay.channel)
    rw [hsay.say]
    exact chatSent_answered text hn (Client.isMember_iff.mpr ⟨hl, hsay.registered, hj⟩)
  | sentDm hdm haccepts =>
    rw [hdm.dm]
    exact sentDm_answered _ haccepts
  | @lostDm target text hdm haccepts =>
    rcases eq_or_ne target i with rfl | hne
    · intro hl'
      have hc' := enqueueOrDisconnect_clients_self hl'
      obtain ⟨heap, hq⟩ := enqueueOrDisconnect_of_not_accepts .dmRecv haccepts
      rw [hq, overflowDisconnect_clients, Function.update_self] at hl'
      exact absurd hl' (Client.not_live_reset _)
    · obtain ⟨name, hread, hfind⟩ := hdm.found
      exact absurd ⟨hdm.dm, hdm.registered, name, text, target, hread, hfind, hne, haccepts⟩ hroom
  | queried text htype _ =>
    refine .reply ?_ rfl
    simp only [List.mem_cons, List.not_mem_nil, or_false] at htype ⊢
    tauto
  | quit htype => exact absurd htype hquit

theorem handleFrame_answered_iff (hn : Numbered s) (hc : ChannelsOk s) (hv : NamesOk s)
    (hl : (s.clients i).Live) (hquit : frame.type ≠ ClientMsgType.quit.toByte) :
    AnsweredOnce s i frame.type frame.payload ↔ ¬ DmRefused s i frame.type frame.payload := by
  refine ⟨fun h hrefused => ?_, fun h => (handleFrame_ending hc hv i frame).answered hn hc hl
    hquit h⟩
  have hclients := hrefused.clients hv
  obtain ⟨new, hnew, hcount⟩ := h (by rw [hclients]; exact hl)
  rw [hclients] at hnew
  obtain rfl : new = [] := List.self_eq_append_right.mp hnew
  cases hcount

end Endings

/-- **Every request is answered exactly once, but for one.**  In every reachable state, for every
live client and every frame but `QUIT`: the client is answered exactly once, unless it is
disconnected, if and only if the frame is not a direct message that the addressee's queue has no
room for. -/
theorem answered_once_iff {s : Server} (h : Reachable s) {i : Slot} (hl : (s.clients i).Live)
    {type : UInt8} (hquit : type ≠ ClientMsgType.quit.toByte) (payload : Bytes) :
    AnsweredOnce s i type payload ↔ ¬ DmRefused s i type payload := by
  exact @handleFrame_answered_iff s i ⟨type, payload⟩ (numbered h.moveReachable)
    (channelsOk h.moveReachable) (namesOk h.moveReachable) hl hquit

theorem reachable_aliceAndBob : Reachable (aliceAndBob 40) := by
  refine .deliver (.deliver (reachable_twoClients ?_) ?_ ?_) ?_ ?_ <;> decide

/-- A direct message from `alice` to `bob` that is too long for what is left of a queue of 40
bytes. -/
def longDm : Bytes := stringField (ascii "bob") ++ stringField (ascii "see you at the gate")

theorem answered_once_iff_list :
    AnsweredOnce (aliceAndBob 40) 0 8 [] ↔ ¬ DmRefused (aliceAndBob 40) 0 8 [] :=
  answered_once_iff reachable_aliceAndBob (by decide) (by decide) []

/-- The sender of a direct message that is not delivered is left without an answer. -/
theorem dm_not_answered : ¬ ∀ s, Reachable s → ∀ i, (s.clients i).Live → ∀ type payload,
    type ≠ ClientMsgType.quit.toByte → AnsweredOnce s i type payload := by
  intro h
  have hanswered := h (aliceAndBob 40) reachable_aliceAndBob 0 (by decide) ClientMsgType.dm.toByte
    longDm (by decide)
  have hrefused : DmRefused (aliceAndBob 40) 0 ClientMsgType.dm.toByte longDm :=
    ⟨rfl, by decide, ascii "bob", ascii "see you at the gate", 1, by decide, by decide, by decide,
      by decide⟩
  have hok := reachable_aliceAndBob.moveReachable
  exact (@handleFrame_answered_iff _ 0 ⟨ClientMsgType.dm.toByte, longDm⟩ (numbered hok)
    (channelsOk hok) (namesOk hok) (by decide) (by decide)).mp hanswered hrefused

end Core
end ChannelWire

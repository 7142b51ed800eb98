import ChannelWire.Core.InputStream
import ChannelWire.Core.OutputStream
import ChannelWire.Core.PollRound

/-!
# Every client is served

`main` serves up to `CW_MAX_CLIENTS` sockets with one thread, and `write_to_client` may leave a
frame half sent: the rest waits for the next `POLLOUT`.  Here the rounds of the loop follow one
another (`runRounds`), under any traffic of the other clients, and what is followed is one
connection.  `main` asks `POLLOUT` for every queue that is not empty.  When the kernel reports it
and the socket takes at least one byte (`ServedOut`), the round makes progress on this connection
(`sentTo_lt_of_served`), whatever the handlers of the other clients append to its queue in the
meantime.  So when it was served in as many rounds as bytes were waiting, all of them were sent, or
the connection was closed.
-/

namespace ChannelWire
namespace Core

open LinkedQueue Relation

/-! ## Rounds -/

/-- What one round of the loop gets from the kernel. -/
structure RoundInput where
  accepts : List AcceptResult
  events : List PollEvents

/-- The loop in `main`, for as many rounds as are given. -/
def runRounds (s : Server) : List RoundInput → Server
  | [] => s
  | r :: rs => runRounds (pollRound s r.accepts r.events) rs

/-- `out_head != NULL`: `main` asks `POLLOUT` for the socket. -/
def AsksOut (s : Server) (i : Slot) : Prop := (s.clients i).out.toList ≠ []

/-- The kernel reports the `POLLOUT` that was asked for slot `i`, and no error; and `send` takes
at least one byte, unless a signal interrupts it first. -/
def ServedOut (s : Server) (i : Slot) (r : RoundInput) : Prop :=
  ∃ e n, ((s.clients i).fd, e) ∈ (pollSet s).zip r.events ∧ e.error = false ∧
    e.writable = true ∧ e.sends.find? (· ≠ .intr) = some (.took n) ∧ 0 < n

/-- What the kernel promises of a round: the descriptors it accepts are new, and `recv` does not
give an empty chunk. -/
structure KernelOk (s : Server) (r : RoundInput) : Prop where
  accepts : FreshAccepts s r.accepts
  recvs : ∀ e ∈ r.events, .data [] ∉ e.recvs

/-- A run of rounds in `n` of which connection `k` is served, should `main` ask `POLLOUT` for it
there.  Nothing is said of the other rounds. -/
inductive ServedIn (k : ℕ) : ℕ → Server → List RoundInput → Prop where
  | done {s : Server} : ServedIn k 0 s []
  | round {n : ℕ} {s : Server} {r : RoundInput} {rs : List RoundInput} : KernelOk s r →
      ServedIn k n (pollRound s r.accepts r.events) rs → ServedIn k n s (r :: rs)
  | served {n : ℕ} {s : Server} {r : RoundInput} {rs : List RoundInput} : KernelOk s r →
      (∀ i, (s.clients i).Live → (s.clients i).conn = k → AsksOut s i → ServedOut s i r) →
      ServedIn k n (pollRound s r.accepts r.events) rs → ServedIn k (n + 1) s (r :: rs)

/-! ## What a round keeps -/

theorem sentTo_mono {k : ℕ} {s t : Server} (h : s.trace <+: t.trace) :
    sentTo k s.trace <+: sentTo k t.trace := h.flatMap _

theorem encodeAll_enqueuedTo_mono {k : ℕ} {s t : Server} (h : s.trace <+: t.trace) :
    pyFraming.encodeAll (enqueuedTo k s.trace) <+: pyFraming.encodeAll (enqueuedTo k t.trace) := by
  obtain ⟨es, hes⟩ := h
  rw [← hes, enqueuedTo, enqueuedTo, List.flatMap_append, StreamDecoder.Codec.encodeAll_append]
  exact List.prefix_append ..

/-- The entries of `pfds` are those of live clients. -/
def EntriesOk (entries : List (ℤ × PollEvents)) : Prop :=
  ∀ entry ∈ entries, 0 ≤ entry.1 ∧ .data [] ∉ entry.2.recvs

theorem entriesOk_zip {s : Server} {events : List PollEvents}
    (hevents : ∀ e ∈ events, .data [] ∉ e.recvs) : EntriesOk ((pollSet s).zip events) := by
  intro entry hentry
  obtain ⟨i, hl, hfd, he⟩ := exists_slot_of_entry hentry
  exact ⟨hfd ▸ hl, hevents _ he⟩

theorem serveEntries_calls {entries : List (ℤ × PollEvents)} {s : Server}
    (h : EntriesOk entries) : ReflTransGen Call s (entries.foldl serveEntry s) := by
  induction entries generalizing s with
  | nil => exact .refl
  | cons entry entries ih =>
    obtain ⟨hfd, hrecvs⟩ := h entry List.mem_cons_self
    exact (serveEntry_calls hfd hrecvs).trans (ih fun e he => h e (List.mem_cons_of_mem _ he))

theorem serveEntries_retains {entries : List (ℤ × PollEvents)} {s : Server}
    (h : EntriesOk entries) : Retains s (entries.foldl serveEntry s) := by
  induction entries generalizing s with
  | nil => exact .refl s
  | cons entry entries ih =>
    obtain ⟨hfd, hrecvs⟩ := h entry List.mem_cons_self
    exact (serveEntry_retains hfd hrecvs).trans (ih fun e he => h e (List.mem_cons_of_mem _ he))

theorem acceptClients_trace {rs : List AcceptResult} {s : Server} :
    s.trace <+: (acceptClients s rs).trace := by
  induction rs generalizing s with
  | nil => exact List.prefix_rfl
  | cons r rs ih =>
    cases r with
    | conn fd nonblocking =>
      have hone : s.trace <+: (acceptConnection s fd nonblocking).trace := by
        unfold acceptConnection
        split
        · exact List.prefix_rfl
        · exact List.prefix_append ..
      exact hone.trans ih
    | intr => exact ih
    | again | failed => exact List.prefix_rfl

section Round

variable {s : Server} {i : Slot} {r : RoundInput}

theorem pollRound_trace (hr : KernelOk s r) :
    s.trace <+: (pollRound s r.accepts r.events).trace :=
  acceptClients_trace.trans (serveEntries_retains (entriesOk_zip hr.recvs)).trace

/-- A connection is in its slot after the round, or was closed in it. -/
theorem pollRound_live_or_closed (hr : KernelOk s r) (hl : (s.clients i).Live) :
    ((pollRound s r.accepts r.events).clients i).Live ∧
        ((pollRound s r.accepts r.events).clients i).conn = (s.clients i).conn ∨
      ∃ reason, .closed (s.clients i).conn reason ∈
        (pollRound s r.accepts r.events).trace := by
  have hkept : (acceptClients s r.accepts).clients i = s.clients i := acceptClients_of_live hl
  have hretains : Retains (acceptClients s r.accepts) (pollRound s r.accepts r.events) :=
    serveEntries_retains (entriesOk_zip hr.recvs)
  by_cases hlive : ((pollRound s r.accepts r.events).clients i).Live
  · have heq := (hretains.same i hlive).2
    rw [hkept] at heq
    exact .inl ⟨hlive, congrArg Prod.snd heq⟩
  · have hgone := hretains.gone i (by rwa [hkept]) hlive
    rw [hkept] at hgone
    exact .inr hgone

/-! ## Progress -/

theorem findClientByFd_of_live (hs : SlotsOk s) (hl : (s.clients i).Live) :
    findClientByFd s (s.clients i).fd = some i := by
  have hsome : (findClientByFd s (s.clients i).fd).isSome = true :=
    List.find?_isSome.mpr ⟨i, mem_slots i, decide_eq_true rfl⟩
  obtain ⟨j, hj⟩ := Option.isSome_iff_exists.mp hsome
  rw [hj, hs.fds j i (live_of_findClientByFd hl hj) hl (findClientByFd_eq_some hj)]

/-- The bytes of a queue that is not empty are not all sent. -/
theorem length_sentTo_lt (hq : QueuesOk s) (ho : OutputOk s) (hl : (s.clients i).Live)
    (hout : AsksOut s i) : (sentTo (s.clients i).conn s.trace).length <
      (pyFraming.encodeAll (enqueuedTo (s.clients i).conn s.trace)).length := by
  rw [← ho.live i hl, List.length_append, Nat.lt_add_right_iff_pos]
  cases h : (s.clients i).out.toList with
  | nil => exact absurd h hout
  | cons frame rest =>
    have hsent := (hq i).head frame (by rw [h]; exact rfl)
    have hsized := (hq i).sized frame (by rw [h]; exact List.mem_cons_self)
    rw [unsentBytes, List.length_append, List.length_drop, hsized.length_data]
    omega

theorem sentTo_eq_of_idle (ho : OutputOk s) (hl : (s.clients i).Live) (hout : ¬ AsksOut s i) :
    sentTo (s.clients i).conn s.trace =
      pyFraming.encodeAll (enqueuedTo (s.clients i).conn s.trace) := by
  rw [← ho.live i hl, not_not.mp hout, unsentBytes_nil, List.append_nil]

/-- `write_to_client` goes on after a signal; the first answer that is no `EINTR` takes bytes of
the first frame. -/
theorem writeToClient_progress {sends : List SendResult} {n : ℕ} (hq : QueuesOk s)
    (hl : (s.clients i).Live) (hout : AsksOut s i)
    (hsends : sends.find? (· ≠ .intr) = some (.took n)) (hn : 0 < n) :
    (sentTo (s.clients i).conn s.trace).length <
      (sentTo (s.clients i).conn (writeToClient s i sends).trace).length := by
  induction sends with
  | nil => exact absurd hsends (Option.some_ne_none _).symm
  | cons answer sends ih =>
    obtain ⟨frame, rest, hframe⟩ := List.exists_cons_of_ne_nil hout
    rw [writeToClient, hframe]
    by_cases hintr : answer = .intr
    · subst hintr
      exact ih hsends
    · have hfirst : (answer :: sends).find? (· ≠ .intr) = some answer :=
        List.find?_cons_of_pos (decide_eq_true hintr)
      obtain rfl := Option.some.inj (hfirst.symm.trans hsends)
      have hsent := (hq i).head frame (by rw [hframe]; exact rfl)
      have hsized := (hq i).sized frame (by rw [hframe]; exact List.mem_cons_self)
      have hpos : min n (frame.len - frame.sent) ≠ 0 := by omega
      have hrest : Retains (takeSent s i (min n (frame.len - frame.sent)))
          (writeToClient (takeSent s i (min n (frame.len - frame.sent))) i sends) :=
        retains_of_serves (writeToClient_steps (live_takeSent hl))
      simp only
      rw [if_neg hpos]
      refine Nat.lt_of_lt_of_le ?_ (sentTo_mono hrest.trace).length_le
      rw [takeSent_trace hframe, sentTo, sentTo, List.flatMap_append, List.flatMap_singleton,
        List.length_append, Effect.sentTo, if_pos rfl, List.length_take, List.length_drop,
        hsized.length_data]
      omega

/-- Where `m` bytes were sent and more were enqueued, `write_to_client` sends more than `m`. -/
theorem lt_sentTo_writeToClient {sends : List SendResult} {m n : ℕ} (h : CallReachable s)
    (hl : (s.clients i).Live) (hsends : sends.find? (· ≠ .intr) = some (.took n)) (hn : 0 < n)
    (hm : m ≤ (sentTo (s.clients i).conn s.trace).length)
    (hmore : m < (pyFraming.encodeAll (enqueuedTo (s.clients i).conn s.trace)).length) :
    m < (sentTo (s.clients i).conn (writeToClient s i sends).trace).length := by
  have hmoves := h.reachable.moveReachable
  by_cases hout : AsksOut s i
  · exact Nat.lt_of_le_of_lt hm (writeToClient_progress (queuesOk hmoves) hl hout hsends hn)
  · have hwrite : Retains s (writeToClient s i sends) :=
      retains_of_serves (writeToClient_steps hl)
    refine Nat.lt_of_lt_of_le ?_ (sentTo_mono hwrite.trace).length_le
    rwa [sentTo_eq_of_idle (outputOk hmoves) hl hout]

/-- The entry of a connection is looked at: more is sent, or the connection is closed. -/
theorem lt_sentTo_serveEntry {e : PollEvents} {m n : ℕ} (h : CallReachable s)
    (hrecvs : .data [] ∉ e.recvs) (herror : e.error = false) (hwritable : e.writable = true)
    (hsends : e.sends.find? (· ≠ .intr) = some (.took n)) (hn : 0 < n)
    (hl : (s.clients i).Live) (hlive : ((serveEntry s ((s.clients i).fd, e)).clients i).Live)
    (hm : m ≤ (sentTo (s.clients i).conn s.trace).length)
    (hmore : m < (pyFraming.encodeAll (enqueuedTo (s.clients i).conn s.trace)).length) :
    m < (sentTo (s.clients i).conn (serveEntry s ((s.clients i).fd, e)).trace).length := by
  have hfind := findClientByFd_of_live (slotsOk h.reachable.moveReachable) hl
  unfold serveEntry at hlive ⊢
  rw [hfind] at hlive ⊢
  simp only [herror, Bool.false_eq_true, if_false, hwritable, and_true] at hlive ⊢
  by_cases hread : e.readable = true
  · simp only [hread, if_true] at hlive ⊢
    have hretains := retains_of_serves (readFromClient_steps hl hrecvs)
    have hreach : CallReachable (readFromClient s i e.recvs) := .step h (.read hl hrecvs)
    have hopen : ((readFromClient s i e.recvs).clients i).Live := by
      by_contra hdead
      rw [if_neg hdead] at hlive
      exact hdead hlive
    have hconn : ((readFromClient s i e.recvs).clients i).conn = (s.clients i).conn :=
      congrArg Prod.snd (hretains.same i hopen).2
    rw [if_pos hopen, ← hconn]
    refine lt_sentTo_writeToClient hreach hopen hsends hn ?_ ?_
    · rw [hconn]
      exact hm.trans (sentTo_mono hretains.trace).length_le
    · rw [hconn]
      exact Nat.lt_of_lt_of_le hmore (encodeAll_enqueuedTo_mono hretains.trace).length_le
  · rw [Bool.not_eq_true] at hread
    simp only [hread, Bool.false_eq_true, if_false]
    rw [if_pos hl]
    exact lt_sentTo_writeToClient h hl hsends hn hm hmore

/-- **A served round makes progress**: bytes of the connection are sent in it, unless the
connection is closed. -/
theorem sentTo_lt_of_served (h : CallReachable s) (hr : KernelOk s r) (hl : (s.clients i).Live)
    (hout : AsksOut s i) (hserved : ServedOut s i r)
    (hlive : ((pollRound s r.accepts r.events).clients i).Live) :
    (sentTo (s.clients i).conn s.trace).length <
      (sentTo (s.clients i).conn (pollRound s r.accepts r.events).trace).length := by
  obtain ⟨e, n, hmem, herror, hwritable, hsends, hn⟩ := hserved
  have hentries : EntriesOk ((pollSet s).zip r.events) := entriesOk_zip hr.recvs
  obtain ⟨before, after, hsplit⟩ := List.append_of_mem hmem
  rw [hsplit] at hentries
  have hbefore : EntriesOk before := fun e he => hentries e (List.mem_append_left _ he)
  have hafter : EntriesOk after := fun e he =>
    hentries e (List.mem_append_right _ (List.mem_cons_of_mem _ he))
  have hentry := hentries ((s.clients i).fd, e) (List.mem_append_right _ List.mem_cons_self)
  have hkept : (acceptClients s r.accepts).clients i = s.clients i := acceptClients_of_live hl
  -- the state in which the loop looks at the entry
  obtain ⟨u, hu⟩ : ∃ u, u = before.foldl serveEntry (acceptClients s r.accepts) := ⟨_, rfl⟩
  have hround : pollRound s r.accepts r.events =
      after.foldl serveEntry (serveEntry u ((s.clients i).fd, e)) := by
    rw [pollRound, hsplit, List.foldl_append, List.foldl_cons, hu]
  have hreach : CallReachable u :=
    hu ▸ (h.trans (acceptClients_calls hr.accepts)).trans (serveEntries_calls hbefore)
  have hfirst : Retains (acceptClients s r.accepts) u := hu ▸ serveEntries_retains hbefore
  have htrace : s.trace <+: u.trace := acceptClients_trace.trans hfirst.trace
  have hlast : Retains (serveEntry u ((s.clients i).fd, e)) (pollRound s r.accepts r.events) :=
    hround ▸ serveEntries_retains hafter
  have hopen := (hlast.same i hlive).1
  have hul := ((serveEntry_retains hentry.1 hentry.2).same i hopen).1
  have hend := (hfirst.same i hul).2
  rw [hkept] at hend
  obtain ⟨hfd, hconn⟩ : (u.clients i).fd = (s.clients i).fd ∧
      (u.clients i).conn = (s.clients i).conn := Prod.ext_iff.mp hend
  rw [← hfd] at hopen hlast
  have hmoves := h.reachable.moveReachable
  have hmore := length_sentTo_lt (queuesOk hmoves) (outputOk hmoves) hl hout
  have hsent : (sentTo (s.clients i).conn s.trace).length <
      (sentTo (u.clients i).conn (serveEntry u ((u.clients i).fd, e)).trace).length := by
    refine lt_sentTo_serveEntry hreach hentry.2 herror hwritable hsends hn hul hopen ?_ ?_
    · rw [hconn]
      exact (sentTo_mono htrace).length_le
    · rw [hconn]
      exact Nat.lt_of_lt_of_le hmore (encodeAll_enqueuedTo_mono htrace).length_le
  rw [hconn] at hsent
  exact Nat.lt_of_lt_of_le hsent (sentTo_mono hlast.trace).length_le

end Round

/-! ## Runs of rounds -/

theorem runRounds_trace {k n : ℕ} {rs : List RoundInput} {s : Server} (h : ServedIn k n s rs) :
    s.trace <+: (runRounds s rs).trace := by
  induction h with
  | done => exact List.prefix_rfl
  | round hr _ ih => exact (pollRound_trace hr).trans ih
  | served hr _ _ ih => exact (pollRound_trace hr).trans ih

/-- The induction over the rounds: `bytes` were enqueued for the connection, and it is served in
as many rounds as bytes of them are not sent. -/
theorem prefix_sentTo_runRounds {k n : ℕ} {rs : List RoundInput} {s : Server} {bytes : Bytes}
    (h : CallReachable s) (hserved : ServedIn k n s rs) {i : Slot} (hl : (s.clients i).Live)
    (hk : (s.clients i).conn = k) (hbytes : bytes <+: pyFraming.encodeAll (enqueuedTo k s.trace))
    (hlen : bytes.length - (sentTo k s.trace).length ≤ n) :
    bytes <+: sentTo k (runRounds s rs).trace ∨
      ∃ reason, .closed k reason ∈ (runRounds s rs).trace := by
  induction hserved with
  | done =>
    have hsent := (outputOk h.reachable.moveReachable).sent k
    refine .inl (List.prefix_of_prefix_length_le hbytes hsent ?_)
    exact Nat.sub_eq_zero_iff_le.mp (Nat.le_zero.mp hlen)
  | round hr hrest ih =>
    have htrace := pollRound_trace hr
    have hle := (sentTo_mono (k := k) htrace).length_le
    rcases pollRound_live_or_closed hr hl with ⟨hlive, hconn⟩ | ⟨reason, hclosed⟩
    · exact ih (h.trans (pollRound_calls hr.accepts hr.recvs)) hlive (hconn.trans hk)
        (hbytes.trans (encodeAll_enqueuedTo_mono htrace)) (by omega)
    · exact .inr ⟨reason, hk ▸ (runRounds_trace hrest).subset hclosed⟩
  | @served n s r rs hr hout hrest ih =>
    have htrace := pollRound_trace hr
    have hle := (sentTo_mono (k := k) htrace).length_le
    rcases pollRound_live_or_closed hr hl with ⟨hlive, hconn⟩ | ⟨reason, hclosed⟩
    · refine ih (h.trans (pollRound_calls hr.accepts hr.recvs)) hlive (hconn.trans hk)
        (hbytes.trans (encodeAll_enqueuedTo_mono htrace)) ?_
      by_cases hasks : AsksOut s i
      · have hmore := sentTo_lt_of_served h hr hl hasks (hout i hl hk hasks) hlive
        rw [hk] at hmore
        omega
      · -- nothing waits: all of `bytes` was sent
        have hall := sentTo_eq_of_idle (outputOk h.reachable.moveReachable) hl hasks
        have hbound := hbytes.length_le
        rw [← hk, ← hall, hk] at hbound
        omega
    · exact .inr ⟨reason, hk ▸ (runRounds_trace hrest).subset hclosed⟩

/-- **Nobody is starved.**  From every state of the loop, whatever the other connections send and
however many frames the handlers append to its queue meanwhile, a connection is served in some
rounds: the kernel reports the `POLLOUT` that `main` asks for it, without an error, and its socket
takes at least one byte.  When it was served in as many rounds as bytes were waiting for it, every
frame that was enqueued for it at the start was sent whole and in order, or the connection was
closed. -/
theorem no_client_is_starved {n : ℕ} {rs : List RoundInput} {s : Server} {i : Slot}
    (h : CallReachable s) (hl : (s.clients i).Live)
    (hserved : ServedIn (s.clients i).conn n s rs)
    (hn : (unsentBytes (s.clients i).out.toList).length ≤ n) :
    pyFraming.encodeAll (enqueuedTo (s.clients i).conn s.trace) <+:
        sentTo (s.clients i).conn (runRounds s rs).trace ∨
      ∃ reason, .closed (s.clients i).conn reason ∈ (runRounds s rs).trace := by
  refine prefix_sentTo_runRounds h hserved hl rfl List.prefix_rfl ?_
  rw [← (outputOk h.reachable.moveReachable).live i hl, List.length_append]
  omega

/-! ## A kernel that serves everybody -/

/-- Every socket is writable, and takes one byte after a signal. -/
def oneByteEach : RoundInput :=
  ⟨[], List.replicate cwMaxClients ⟨false, false, true, [], [.intr, .took 1]⟩⟩

theorem servedOut_oneByteEach {s : Server} {i : Slot} (hl : (s.clients i).Live) :
    ServedOut s i oneByteEach := by
  have hmem : (s.clients i).fd ∈ pollSet s :=
    List.mem_map.mpr ⟨i, List.mem_filter.mpr ⟨mem_slots i, decide_eq_true hl⟩, rfl⟩
  obtain ⟨n, hn⟩ := List.mem_iff_getElem?.mp hmem
  have hlen : (pollSet s).length ≤ cwMaxClients := by
    rw [pollSet, List.length_map]
    exact (List.length_filter_le ..).trans (List.length_finRange ..).le
  have hlt : n < cwMaxClients := (List.getElem?_eq_some_iff.mp hn).1.trans_le hlen
  refine ⟨⟨false, false, true, [], [.intr, .took 1]⟩, 1, List.mem_iff_getElem?.mpr ⟨n, ?_⟩, rfl,
    rfl, rfl, Nat.one_pos⟩
  exact List.getElem?_zip_eq_some.mpr ⟨hn, List.getElem?_replicate_of_lt hlt⟩

theorem servedIn_oneByteEach (k n : ℕ) (s : Server) :
    ServedIn k n s (List.replicate n oneByteEach) := by
  induction n generalizing s with
  | zero => exact .done
  | succ n ih =>
    refine .served ⟨trivial, fun e he => ?_⟩ (fun i hl _ _ => servedOut_oneByteEach hl) (ih _)
    rw [List.eq_of_mem_replicate he]
    exact List.not_mem_nil

theorem no_client_is_starved_list :
    pyFraming.encodeAll (enqueuedTo 1 listInTwoChunks.trace) <+:
        sentTo 1 (runRounds listInTwoChunks (List.replicate 64 oneByteEach)).trace ∨
      ∃ reason, .closed 1 reason ∈
        (runRounds listInTwoChunks (List.replicate 64 oneByteEach)).trace :=
  no_client_is_starved (i := 0) callReachable_listInTwoChunks (by decide)
    (servedIn_oneByteEach 1 64 listInTwoChunks) (by decide +kernel)

end Core
end ChannelWire

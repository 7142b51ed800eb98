import ChannelWire.Core.Confinement
import ChannelWire.Core.Renaming

/-!
# The notice of a new name

`handle_nick` tells the members of the client's active channel that it has another name.
`handle_hello` takes a name as well, also from a client that is registered, and tells nobody.  So a
new name is announced if it came with a `NICK`, or if there was nobody to tell
(`rename_announced_iff`).
-/

namespace ChannelWire
namespace Core

variable {s t : Server} {i j : Slot} {frame : Frame}

/-- Each other member of the client's active channel gets the notice of its new name, or is reset
because it has no room for it. -/
def Announced (s t : Server) (i : Slot) : Prop :=
  ∀ j, j ≠ i → SharesChannel s i j →
    Gets j .system ((s.clients i).username ++ ascii " is now " ++ (t.clients i).username) s t

/-- The notice holds both names. -/
theorem nickNotice_eq (hv : NamesOk s) (hreg : (s.clients i).registered = true) {name : Bytes}
    (hname : ValidName name) :
    nickNotice (s.clients i) name = (s.clients i).username ++ ascii " is now " ++ name := by
  have hold : ValidName (s.clients i).username := hv.valid i ((hv.registered_iff i).mp hreg)
  have hwhole : snprintf (cwNameCap + 1) (s.clients i).username = (s.clients i).username :=
    List.take_of_length_le hold.length_le
  have hfits : ((s.clients i).username ++ ascii " is now " ++ name).length ≤ 160 - 1 := by
    have hlen := hold.length_le
    have hlen' := hname.length_le
    have hword : (ascii " is now ").length = 8 := by decide
    have hcap : cwNameCap = 32 := rfl
    rw [List.length_append, List.length_append, hword]
    omega
  unfold nickNotice
  simp only [hwhole]
  rw [if_neg hold.ne_nil]
  exact List.take_of_length_le hfits

/-- **A client with another name took it with a `HELLO` or a `NICK`.** -/
theorem acceptsName_of_changed (hl : (s.clients i).Live)
    (hlive : ((handleFrame s i frame.type frame.payload).clients i).Live)
    (hchanged : ((handleFrame s i frame.type frame.payload).clients i).username ≠
      (s.clients i).username) :
    (frame.type = ClientMsgType.hello.toByte ∨ frame.type = ClientMsgType.nick.toByte) ∧
      AcceptsName s i frame
        ((handleFrame s i frame.type frame.payload).clients i).username := by
  have hactions := handleFrame_actions (s := s) (i := i) frame.type frame.payload hl
  rcases hactions.name_cases hlive with hsame | hrenamed
  · exact absurd hsame.2 hchanged
  · refine ⟨hrenamed.type, hrenamed.name, Bool.eq_false_iff.mpr fun huse => hchanged ?_⟩
    have hrefused := handleFrame_refused hl hrenamed.type fun name hread => by
      rw [← Option.some.inj (hrenamed.name.symm.trans hread)]
      exact huse
    exact (Actions.sameName hrefused hlive).2

/-- A `HELLO` leaves the other slots alone. -/
theorem handleFrame_hello_others (hc : ChannelsOk s) (hv : NamesOk s) (hl : (s.clients i).Live)
    (ht : frame.type = ClientMsgType.hello.toByte) (hne : j ≠ i) :
    (handleFrame s i frame.type frame.payload).clients j = s.clients j := by
  have hnot : ∀ {t : ClientMsgType}, t ≠ .hello → frame.type ≠ t.toByte := fun hne heq =>
    hne (ClientMsgType.toByte_inj.mp (heq.symm.trans ht))
  exact (handleFrame_ending hc hv i frame).others hc hl
    (fun _ _ hsay => hnot (by decide) hsay.say) (fun _ _ hdm => hnot (by decide) hdm.dm)
    (fun _ hnick _ => absurd hnick (hnot (by decide))) hne

/-- A member of a channel that is left alone got nothing. -/
theorem Gets.clients_ne {type : ServerMsgType} {payload : Bytes} (h : Gets j type payload s t)
    (hl : (s.clients j).Live) : t.clients j ≠ s.clients j := by
  intro hsame
  cases h with
  | appended _ hclient =>
    have hbytes := congrArg Client.queuedBytes (hsame.symm.trans hclient)
    have hlen : (OutFrame.make type payload).len = cwFrameHeaderSize + payload.length := rfl
    have hheader : cwFrameHeaderSize = 5 := rfl
    simp only [hlen] at hbytes
    omega
  | reset _ hclient =>
    rw [← hsame, hclient] at hl
    exact Client.not_live_reset _ hl

/-- **A new name is announced, unless it came with a `HELLO`.**  In every reachable state and for
every frame with which a registered client changes its name: the other members of its active
channel get one notice each, with both names, or are disconnected for want of room, if and only if
the frame is a `NICK` or there are none. -/
theorem rename_announced_iff (h : Reachable s) (hl : (s.clients i).Live)
    (hreg : (s.clients i).registered = true)
    (hlive : ((handleFrame s i frame.type frame.payload).clients i).Live)
    (hchanged : ((handleFrame s i frame.type frame.payload).clients i).username ≠
      (s.clients i).username) :
    Announced s (handleFrame s i frame.type frame.payload) i ↔
      frame.type = ClientMsgType.nick.toByte ∨ ∀ j, j ≠ i → ¬ SharesChannel s i j := by
  have hc := channelsOk h.moveReachable
  have hv := namesOk h.moveReachable
  obtain ⟨htype, hname⟩ := acceptsName_of_changed hl hlive hchanged
  constructor
  · intro hannounced
    refine htype.symm.imp_right fun hhello j hne hshare => ?_
    obtain ⟨idx, hidx, hmember⟩ := hshare
    exact (hannounced j hne ⟨idx, hidx, hmember⟩).clients_ne (Client.isMember_iff.mp hmember).1
      (handleFrame_hello_others hc hv hl hhello hne)
  · rintro (hnick | hnobody) j hne hshare
    · obtain ⟨-, hvalid, -⟩ := readName_eq_some hname.read
      rw [← nickNotice_eq hv hreg hvalid]
      exact (renamed_slot hc hl _ hne (handleFrame_of_nick hnick hname)).1 hlive hshare
    · exact absurd hshare (hnobody j hne)

/-- `alice` becomes `carol` in a room with `bob`. -/
theorem rename_announced_iff_carol :
    Announced roomWithText (handleFrame roomWithText 0 9 (stringField (ascii "carol"))) 0 ↔
      (9 : UInt8) = ClientMsgType.nick.toByte ∨
        ∀ j, j ≠ (0 : Slot) → ¬ SharesChannel roomWithText 0 j :=
  @rename_announced_iff roomWithText 0 ⟨9, stringField (ascii "carol")⟩ reachable_roomWithText
    (by decide +kernel) (by decide +kernel) (by decide +kernel) (by decide +kernel)

/-- When `alice` becomes `carol` with a `HELLO`, `bob` is not told. -/
theorem hello_not_announced :
    ¬ ∀ (s : Server) (i : Slot) (frame : Frame), Reachable s → (s.clients i).Live →
      (s.clients i).registered = true → (s.clients i).activeChannel ≠ [] →
      ((handleFrame s i frame.type frame.payload).clients i).Live →
      ((handleFrame s i frame.type frame.payload).clients i).username ≠
        (s.clients i).username →
      Announced s (handleFrame s i frame.type frame.payload) i := by
  intro h
  have hr := reachable_roomWithText
  have hlive : (roomWithText.clients 0).Live := by decide +kernel
  have hshares : SharesChannel roomWithText 0 1 := ⟨0, by decide +kernel, by decide +kernel⟩
  have hgets := h roomWithText 0 ⟨1, stringField (ascii "carol")⟩ hr hlive (by decide +kernel)
    (by decide +kernel) (by decide +kernel) (by decide +kernel) 1 (by decide) hshares
  exact hgets.clients_ne (by decide +kernel) (handleFrame_hello_others
    (channelsOk hr.moveReachable) (namesOk hr.moveReachable) hlive rfl (by decide))

end Core
end ChannelWire

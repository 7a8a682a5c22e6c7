import DhcpRelay.RawSocket
import DhcpRelay.Fanout

/-!
# Replies and the socket they are sent on

`HandleGenericReply` opens a raw socket, has the kernel drop whatever would be received
on it, sends one frame per target interface, and closes the socket on its way out
(`pkg/dhcp4/reply.go`). `handleGenericReply` knows of this only whether each step
succeeds. Here the same handler makes the system calls: `rawSocket` has the methods of
`Raw` for its calls, and on it the handler is a program in the sense of `Handles`,
`handleGenericReplyRaw`.

Two things are shown of it. It *refines* `handleGenericReply` (`reply_refines_host`):
whatever the kernel answers, it returns what `handleGenericReply` returns on a host where
the steps fail and succeed likewise, so that all that was proved of the latter on every
host is proved of the former; and what it has put on the wire is what its outcome says
was sent. And it looks after its descriptor (`descriptors_sound`), however many handlers
run at once, beside the receiving socket and whatever else the process has open.
-/

open Dhcp Handles Sockets Relay

/-- What a machine makes of a frame: its byte order, and the bytes of the frame
(`gopacket.SerializeLayers`). -/
structure Wire where
  littleEndian : Bool
  encode : Frame → Bytes

/-- `Htons`. -/
def Wire.htons (wire : Wire) (i : UInt16) : UInt16 :=
  if wire.littleEndian then i <<< 8 ||| i >>> 8 else i

/-- `ETH_P_ALL`. -/
def ethPAll : UInt16 := 0x0003

/-- The filter that keeps nothing. -/
def filterAll : List Bpf.SockFilter := [{ code := Bpf.bpfRET ||| Bpf.bpfK, k := 0 }]

/-- **The socket of `HandleGenericReply`**, with its system calls. -/
def rawSocket (wire : Wire) : ReplySocket (Prog calls) Raw where
  create := ({} : Raw).create (wire.htons ethPAll)
  attachBPF rs := rs.attachBPF filterAll
  send rs _ nic f :=
    rs.send nic.index nic.hardwareAddr (wire.htons ethPAll) (wire.encode f) >>= fun x => .ret x.2
  close rs := rs.close >>= fun _ => .ret ()

/-- **`HandleGenericReply`**, with its system calls. -/
def handleGenericReplyRaw (host : Host) (wire : Wire) (cfg : HandleOptions) (dec : Decision)
    (layer : DHCPv4) (replyType : ReplyType) : Prog calls Outcome :=
  handleGenericReplyBy (rawSocket wire) host cfg dec layer replyType

/-! ## The descriptor of a handler -/

section Descriptors

variable {host : Host} {wire : Wire} {rs : Raw} {own : Set ℕ}

theorem wp_sendReplyBy (h : rs.Holds own) (n : ℕ) (nic : Interface) (dstMAC : Bytes)
    (layer : DHCPv4) (ipv4 : IPv4Header) :
    (sendReplyBy ((rawSocket wire).send rs) host n nic dstMAC layer ipv4).wp
      (fun _ own' => own' = own) own := by
  unfold sendReplyBy
  split
  · exact rfl
  · split
    · exact rfl
    · exact Prog.wp_bind (Prog.wp_bind (Prog.wp_mono (wp_send h _ _ _ _) fun _ _ hown => hown))

theorem wp_sendRepliesBy (h : rs.Holds own) (replyType : ReplyType) (srcIP : IP)
    (ingress : Interface) (dstMAC : Bytes) (layer : DHCPv4) (n : ℕ) (ipv4 : IPv4Header)
    (nics : List Interface) :
    (sendRepliesBy ((rawSocket wire).send rs) host replyType srcIP ingress dstMAC layer n ipv4
      nics).wp (fun _ own' => own' = own) own := by
  induction nics generalizing n ipv4 with
  | nil => exact rfl
  | cons nic nics ih =>
    unfold sendRepliesBy
    split
    · exact Prog.wp_bind (Prog.wp_mono (ih _ _) fun _ _ hown => hown)
    · refine Prog.wp_bind (Prog.wp_mono (wp_sendReplyBy h _ _ _ _ _) ?_)
      rintro s own' rfl
      exact Prog.wp_bind (Prog.wp_mono (ih _ _) fun _ _ hown => hown)

/-- **The handler gives back what it opens**, whichever way it ends. -/
theorem wp_deliverBy (cfg : HandleOptions) (dec : Decision) (replyType : ReplyType) (srcIP : IP)
    (ingress : Interface) (dstMAC : Bytes) (layer : DHCPv4) (ipv4 : IPv4Header) :
    (deliverBy (rawSocket wire) host cfg dec replyType srcIP ingress dstMAC layer ipv4).wp
      (fun _ own => own = ∅) ∅ := by
  refine Prog.wp_bind (Prog.wp_mono (wp_create holds_zero _) ?_)
  rintro ⟨rs, err⟩ own ⟨hrs, herr⟩
  have hclose : ∀ o : Outcome,
      ((rawSocket wire).close rs >>= fun _ => Prog.ret o).wp (fun _ own => own = ∅) own := fun o =>
    Prog.wp_bind (Prog.wp_bind (Prog.wp_mono (wp_close hrs) fun _ _ hx => hx.2))
  cases err with
  | some e =>
    -- what failed to be created is as it was
    rcases herr with h | rfl
    · cases h
    · exact hrs.eq_of_none rfl
  | none =>
    refine Prog.wp_bind (Prog.wp_mono (wp_attachBPF hrs filterAll) ?_)
    rintro err own' rfl
    cases err with
    | some e => exact hclose _
    | none =>
      refine Prog.wp_bind (Prog.wp_mono (wp_sendRepliesBy hrs _ _ _ _ _ _ _ _) ?_)
      rintro r own' rfl
      exact hclose _

theorem wp_handleGenericReplyRaw (cfg : HandleOptions) (dec : Decision) (layer : DHCPv4)
    (replyType : ReplyType) :
    (handleGenericReplyRaw host wire cfg dec layer replyType).wp (fun _ own => own = ∅) ∅ := by
  unfold handleGenericReplyRaw handleGenericReplyBy
  split
  · exact rfl
  · split
    · exact rfl
    · split
      · exact rfl
      · exact wp_deliverBy cfg dec replyType _ _ _ _ _

end Descriptors

/-- **What goroutines do with sockets**: they handle replies, or they make any calls of
methods on a socket of their own and close it in the end, as the main loop does. -/
inductive SocketJob (wire : Wire) : Prog calls Unit → Prop where
  | reply (host : Host) (cfg : HandleOptions) (dec : Decision) (layer : DHCPv4)
      (replyType : ReplyType) :
      SocketJob wire (handleGenericReplyRaw host wire cfg dec layer replyType >>= fun _ => .ret ())
  | session (ms : List Method) :
      SocketJob wire (session {} ms >>= fun r => r.close >>= fun _ => .ret ())

theorem wp_of_socketJob {wire : Wire} {p : Prog calls Unit} (h : SocketJob wire p) :
    p.wp (fun _ own => own = ∅) ∅ := by
  cases h with
  | reply host cfg dec layer replyType =>
    exact Prog.wp_bind (Prog.wp_mono (wp_handleGenericReplyRaw cfg dec layer replyType)
      fun _ _ hown => hown)
  | session ms =>
    refine Prog.wp_bind (Prog.wp_mono (wp_session holds_zero ms) fun r own hr => ?_)
    exact Prog.wp_bind (Prog.wp_mono (wp_close hr) fun _ _ hx => hx.2)

/-- **No goroutine touches a descriptor that is not its own.** However many replies are
handled at once and whatever is done with other sockets beside them, with descriptors
that are recycled all the time and any answers of the kernel: a call on a descriptor is
made by the goroutine that has it open, so none is closed twice or used after it was
closed; and a goroutine that is done has left none open. -/
theorem descriptors_sound (wire : Wire)
    {s : Threads.State (Table calls) (Option (Prog calls Unit))}
    (h : (threads (SocketJob wire)).system.Reachable s) (i : ℕ) :
    (∀ fd o k, s.thread i = some (.use fd o k) → s.shared fd = .thread i)
      ∧ (∀ fd k, s.thread i = some (.release fd k) → s.shared fd = .thread i)
      ∧ (s.thread i = none ∨ s.thread i = some (.ret ()) → ∀ fd, s.shared fd ≠ .thread i) := by
  have howns := owns_of_reachable (fun p => wp_of_socketJob) h i
  refine ⟨fun fd o k hp => ?_, fun fd k hp => ?_, fun hp fd hfd => ?_⟩
  · rw [hp] at howns
    exact howns.1
  · rw [hp] at howns
    exact howns.1
  · have hnone : s.shared.held i = ∅ := by
      rcases hp with hp | hp
      · rw [hp] at howns
        exact howns
      · rw [hp] at howns
        exact howns
    have hmem : fd ∈ s.shared.held i := hfd
    rw [hnone] at hmem
    exact hmem

/-- Thread 0 opens descriptor 7 and closes it, and thread 1 gets the same one: on any
machine. -/
theorem descriptors_sound_recycled :
    ∃ s : Threads.State (Table calls) (Option (Prog calls Unit)), ∃ k, ∀ wire : Wire,
      (threads (SocketJob wire)).system.Reachable s
        ∧ s.thread 1 = some (.use 7 .ignoreOutgoing k) ∧ s.shared 7 = .thread 1
        ∧ s.shared 7 ≠ .thread 0 := by
  let p : Prog calls Unit := session {} [.create 3] >>= fun r => r.close >>= fun _ => .ret ()
  let t : Table calls := Function.update (Function.update (fun _ => .free) 7 (.thread 0)) 7 .free
  apply Exists.intro
  apply Exists.intro
  intro wire
  have hjob : SocketJob wire p := .session [.create 3]
  have hinit : (threads (SocketJob wire)).system.Reachable ⟨fun _ => .free, fun _ => none⟩ := by
    refine .init ⟨fun i => ?_, rfl⟩
    ext fd
    simp [Table.held]
  have hrun : (threads (SocketJob wire)).Run 0 (fun _ => .free, none) (t, none) := by
    refine .step (.start hjob) ?_
    refine .step (.acquire (K := calls) (h := 7) rfl) ?_
    refine .step (.use (none : Option Errno)) ?_
    refine .step (.release none) ?_
    exact .step .finish .refl
  have hclosed := Threads.reachable_of_run hinit hrun
  have hopened := Threads.reachable_of_run (i := 1) hclosed
    (.step (.start hjob) (.step (.acquire (K := calls) (h := 7) rfl) .refl))
  have hidle := (descriptors_sound _ hopened 0).2.2 (.inl rfl) 7
  have huse := (descriptors_sound _ hopened 1).1 7 _ _ rfl
  exact ⟨hopened, rfl, huse, hidle⟩

/-! ## What the handler does -/

/-- The host with other luck with its sockets. -/
def Host.withSockets (host : Host) (create attach : Option String) (send : ℕ → Option String) :
    Host :=
  { host with rawCreate := create, rawAttachBPF := attach, send }

/-- A frame that a call has put on the wire, with the interface. -/
def sentOn : Event calls → Option (ℤ × Bytes)
  | .used _ (.sendto buf sa) e =>
    if Option.isNone (α := Errno) e then some (sa.ifindex, buf) else none
  | _ => none

/-- What an emission is on the wire. -/
def Emission.onWire (wire : Wire) : Emission → Option (ℤ × Bytes)
  | .frame f => some (f.nic, wire.encode f)
  | .datagram _ _ => none

/-- What was sent, on the wire. -/
def Outcome.onWire (wire : Wire) (o : Outcome) : List (ℤ × Bytes) :=
  o.sent.filterMap (Emission.onWire wire)

/-- The part of it that is due to some attempts. -/
def attemptsOnWire (wire : Wire) (as : List Attempt) : List (ℤ × Bytes) :=
  (as.filter (fun a => a.err.isNone)).filterMap (fun a => a.emission.onWire wire)

theorem onWire_eq (wire : Wire) (o : Outcome) : o.onWire wire = attemptsOnWire wire o.attempts := by
  rw [Outcome.onWire, Outcome.sent, List.filterMap_map]
  rfl

theorem attemptsOnWire_append (wire : Wire) (as bs : List Attempt) :
    attemptsOnWire wire (as ++ bs) = attemptsOnWire wire as ++ attemptsOnWire wire bs := by
  rw [attemptsOnWire, List.filter_append, List.filterMap_append]
  rfl

section Runs

variable {host : Host} {wire : Wire} {rs : Raw} {l : List (Event calls)}

theorem ifindex_of_setLinkLayerAddr {sa sa' : SockaddrLinklayer} {hwAddr : Bytes}
    (h : setLinkLayerAddr sa hwAddr = .ok sa') : sa'.ifindex = sa.ifindex := by
  unfold setLinkLayerAddr at h
  split at h
  · cases h
    rfl
  · split at h
    · cases h
    · cases h
      rfl

/-- A frame is on the wire if `Send` returns no error. -/
theorem sentOn_send {ifIndex : ℤ} {hwAddr : Bytes} {protocol : UInt16} {buf : Bytes}
    {x : ℕ × Option String} (h : (rs.send ifIndex hwAddr protocol buf).Runs l x) :
    l.filterMap sentOn = if x.2 = none then [(ifIndex, buf)] else [] := by
  unfold Raw.send at h
  cases hf : rs.f with
  | none =>
    simp only [hf] at h
    obtain ⟨rfl, rfl⟩ := h.of_ret
    rfl
  | some f =>
    simp only [hf] at h
    cases hsa : setLinkLayerAddr { ifindex := ifIndex, protocol } hwAddr with
    | error e =>
      simp only [hsa] at h
      obtain ⟨rfl, rfl⟩ := h.of_ret
      rfl
    | ok sa =>
      simp only [hsa] at h
      split at h
      · obtain ⟨rfl, rfl⟩ := h.of_ret
        rfl
      · cases h with
        | @use _ _ _ err l _ hk =>
          have hi : sa.ifindex = ifIndex := ifindex_of_setLinkLayerAddr hsa
          change Option Errno at err
          cases err with
          | none =>
            obtain ⟨rfl, rfl⟩ := hk.of_ret
            rw [← hi]
            rfl
          | some e =>
            obtain ⟨rfl, rfl⟩ := hk.of_ret
            rfl

/-- Closing a file puts nothing on the wire. -/
theorem sentOn_file_close {f : File} {x : File × Option String} (h : f.close.Runs l x) :
    l.filterMap sentOn = [] := by
  unfold File.close at h
  split at h
  · obtain ⟨rfl, -⟩ := h.of_ret
    rfl
  · cases h with
    | release hk =>
      obtain ⟨rfl, -⟩ := hk.of_ret
      rfl

theorem sentOn_close {x : Raw × Option String} (h : rs.close.Runs l x) :
    l.filterMap sentOn = [] := by
  unfold Raw.close at h
  cases hf : rs.f with
  | none =>
    simp only [hf] at h
    obtain ⟨rfl, -⟩ := h.of_ret
    rfl
  | some f =>
    simp only [hf] at h
    obtain ⟨y, l₁, l₂, rfl, hclose, hret⟩ := h.of_bind
    obtain ⟨rfl, -⟩ := hret.of_ret
    rw [List.append_nil]
    exact sentOn_file_close hclose

/-- Nor does creating a socket that was not open. -/
theorem sentOn_create {protocol : UInt16} {x : Raw × Option String}
    (h : (({} : Raw).create protocol).Runs l x) : l.filterMap sentOn = [] := by
  unfold Raw.create at h
  cases h with
  | @acquire _ _ y l _ hk =>
    cases y with
    | error e =>
      obtain ⟨rfl, -⟩ := hk.of_ret
      rfl
    | ok fd =>
      cases hk with
      | @use _ _ _ err l _ hk =>
        change Option Errno at err
        cases err with
        | none =>
          obtain ⟨rfl, -⟩ := hk.of_ret
          rfl
        | some e =>
          cases e with
          | noProtoOpt =>
            obtain ⟨rfl, -⟩ := hk.of_ret
            rfl
          | other e =>
            cases hk with
            | release hk =>
              obtain ⟨rfl, -⟩ := hk.of_ret
              rfl

theorem sentOn_attachBPF {bytecode : List Bpf.SockFilter} {x : Option String}
    (h : (rs.attachBPF bytecode).Runs l x) : l.filterMap sentOn = [] := by
  unfold Raw.attachBPF Raw.control at h
  split at h
  · obtain ⟨rfl, -⟩ := h.of_ret
    rfl
  · cases hf : rs.f with
    | none =>
      simp only [hf] at h
      obtain ⟨rfl, -⟩ := h.of_ret
      rfl
    | some f =>
      simp only [hf] at h
      split at h
      · obtain ⟨rfl, -⟩ := h.of_ret
        rfl
      · cases h with
        | use hk =>
          obtain ⟨rfl, -⟩ := hk.of_ret
          rfl

/-- **One frame**: the handler attempts what `sendReply` attempts where the call ends
likewise. -/
theorem sendReplyBy_runs {n : ℕ} {nic : Interface} {dstMAC : Bytes} {layer : DHCPv4}
    {ipv4 : IPv4Header} {x : Option Attempt × Option String}
    (h : (sendReplyBy ((rawSocket wire).send rs) host n nic dstMAC layer ipv4).Runs l x) :
    (∃ e, ∀ create attach send, send n = e →
        x = sendReply (host.withSockets create attach send) n nic dstMAC layer ipv4)
      ∧ l.filterMap sentOn = attemptsOnWire wire x.1.toList := by
  unfold sendReplyBy at h
  split at h
  · next hhw =>
    obtain ⟨rfl, rfl⟩ := h.of_ret
    refine ⟨⟨none, fun create attach send _ => ?_⟩, rfl⟩
    rw [sendReply, sendReplyBy, if_pos hhw]
    rfl
  · next hhw =>
    cases hser : host.serialize n with
    | some e =>
      simp only [hser] at h
      obtain ⟨rfl, rfl⟩ := h.of_ret
      refine ⟨⟨none, fun create attach send _ => ?_⟩, rfl⟩
      have hser' : (host.withSockets create attach send).serialize n = some e := hser
      rw [sendReply, sendReplyBy, if_neg hhw, hser']
      rfl
    | none =>
      simp only [hser] at h
      obtain ⟨err, l₁, l₂, rfl, hcall, hret⟩ := h.of_bind
      obtain ⟨rfl, rfl⟩ := hret.of_ret
      obtain ⟨y, l₁, l₂, rfl, hsend, hret⟩ := hcall.of_bind
      obtain ⟨rfl, rfl⟩ := hret.of_ret
      refine ⟨⟨y.2, fun create attach send hn => ?_⟩, ?_⟩
      · have hser' : (host.withSockets create attach send).serialize n = none := hser
        have hsend' : (host.withSockets create attach send).send n = y.2 := hn
        rw [sendReply_ok hhw hser', hsend']
      · rw [List.append_nil, List.append_nil, sentOn_send hsend]
        cases y.2 with
        | none => rfl
        | some e => rfl

/-- **The loop**, by induction on the targets: the `n`-th frame and those after it fare as
the calls do. -/
theorem sendRepliesBy_runs {replyType : ReplyType} {srcIP : IP} {ingress : Interface}
    {dstMAC : Bytes} {layer : DHCPv4} {n : ℕ} {ipv4 : IPv4Header} {nics : List Interface}
    {r : List Attempt × List String}
    (h : (sendRepliesBy ((rawSocket wire).send rs) host replyType srcIP ingress dstMAC layer n ipv4
      nics).Runs l r) :
    (∃ fate : ℕ → Option String, ∀ create attach send, (∀ m, n ≤ m → send m = fate m) →
        r = sendReplies (host.withSockets create attach send) replyType srcIP ingress dstMAC layer
          n ipv4 nics)
      ∧ l.filterMap sentOn = attemptsOnWire wire r.1 := by
  induction nics generalizing n ipv4 l r with
  | nil =>
    obtain ⟨rfl, rfl⟩ := h.of_ret
    exact ⟨⟨fun _ => none, fun create attach send _ => rfl⟩, rfl⟩
  | cons nic nics ih =>
    unfold sendRepliesBy at h
    cases hsrc : nicSource host replyType srcIP ingress layer ipv4 nic with
    | error e =>
      simp only [hsrc] at h
      obtain ⟨r', l₁, l₂, rfl, hrest, hret⟩ := h.of_bind
      obtain ⟨rfl, rfl⟩ := hret.of_ret
      obtain ⟨⟨fate, hfate⟩, hsent⟩ := ih hrest
      refine ⟨⟨fate, fun create attach send hsend => ?_⟩, by rw [List.append_nil, hsent]⟩
      have hsrc' : nicSource (host.withSockets create attach send) replyType srcIP ingress layer
          ipv4 nic = .error e := hsrc
      rw [sendReplies_of_error hsrc',
        hfate create attach send fun m hm => hsend m (Nat.le_of_succ_le hm)]
    | ok ipv4' =>
      simp only [hsrc] at h
      obtain ⟨s, l₁, l₂, rfl, hone, h⟩ := h.of_bind
      obtain ⟨r', l₂, l₃, rfl, hrest, hret⟩ := h.of_bind
      obtain ⟨rfl, rfl⟩ := hret.of_ret
      obtain ⟨⟨e, he⟩, hsent₁⟩ := sendReplyBy_runs hone
      obtain ⟨⟨fate, hfate⟩, hsent₂⟩ := ih hrest
      refine ⟨⟨Function.update fate n e, fun create attach send hsend => ?_⟩, ?_⟩
      · have hsrc' : nicSource (host.withSockets create attach send) replyType srcIP ingress layer
            ipv4 nic = .ok ipv4' := hsrc
        have hn : send n = e := by rw [hsend n le_rfl, Function.update_self]
        have hlater : ∀ m, n + 1 ≤ m → send m = fate m := by
          intro m hm
          rw [hsend m (Nat.le_of_succ_le hm), Function.update_of_ne (Nat.ne_of_gt hm)]
        rw [sendReplies_of_ok hsrc', ← he create attach send hn,
          ← hfate create attach send hlater]
      · rw [List.append_nil, List.filterMap_append, hsent₁, hsent₂, attemptsOnWire_append]

/-- **The part with the socket**: there is none, it takes no filter, or the loop is run. -/
theorem deliverBy_runs {cfg : HandleOptions} {dec : Decision} {replyType : ReplyType} {srcIP : IP}
    {ingress : Interface} {dstMAC : Bytes} {layer : DHCPv4} {ipv4 : IPv4Header} {o : Outcome}
    (h : (deliverBy (rawSocket wire) host cfg dec replyType srcIP ingress dstMAC layer ipv4).Runs
      l o) :
    ((∃ e, o = .failed layer ("socket create error: " ++ e))
        ∨ (∃ e, o = .failed layer ("socket attach BPF error: " ++ e))
        ∨ ∃ fate r, r = sendReplies (host.withSockets none none fate) replyType srcIP ingress dstMAC
            layer 0 ipv4 (replyTargets host cfg dec.replyNICMatch ingress)
          ∧ o = { err := errorsJoin r.2, layer, attempts := r.1 })
      ∧ l.filterMap sentOn = o.onWire wire := by
  have hclosed : ∀ {rs : Raw} {l : List (Event calls)} {u : Unit},
      ((rawSocket wire).close rs).Runs l u → l.filterMap sentOn = [] := by
    intro rs l u h
    obtain ⟨y, l₁, l₂, rfl, hclose, hret⟩ := h.of_bind
    obtain ⟨rfl, -⟩ := hret.of_ret
    rw [List.append_nil, sentOn_close hclose]
  unfold deliverBy at h
  obtain ⟨x, l₁, l₂, rfl, hcreate, h⟩ := h.of_bind
  rw [List.filterMap_append, sentOn_create hcreate, List.nil_append]
  cases hx : x.2 with
  | some e =>
    simp only [hx] at h
    obtain ⟨rfl, rfl⟩ := h.of_ret
    exact ⟨.inl ⟨e, rfl⟩, rfl⟩
  | none =>
    simp only [hx] at h
    obtain ⟨err, l₁, l₂, rfl, hattach, h⟩ := h.of_bind
    have hnothing : l₁.filterMap sentOn = [] :=
      sentOn_attachBPF (show (x.1.attachBPF filterAll).Runs l₁ err from hattach)
    rw [List.filterMap_append, hnothing, List.nil_append]
    cases err with
    | some e =>
      obtain ⟨y, l₁, l₂, rfl, hclose, hret⟩ := h.of_bind
      obtain ⟨rfl, rfl⟩ := hret.of_ret
      rw [List.append_nil, hclosed hclose]
      exact ⟨.inr (.inl ⟨e, rfl⟩), rfl⟩
    | none =>
      obtain ⟨r, l₁, l₂, rfl, hloop, h⟩ := h.of_bind
      obtain ⟨y, l₂, l₃, rfl, hclose, hret⟩ := h.of_bind
      obtain ⟨rfl, rfl⟩ := hret.of_ret
      obtain ⟨⟨fate, hfate⟩, hsent⟩ := sendRepliesBy_runs hloop
      rw [List.append_nil, List.filterMap_append, hclosed hclose, List.append_nil, hsent,
        onWire_eq]
      exact ⟨.inr (.inr ⟨fate, r, hfate none none fate fun m _ => rfl, rfl⟩), rfl⟩

/-- **The handler refines the model of it on a host.** Whatever the kernel answers to its
system calls, the handler returns what `handleGenericReply` returns on the same host with
some luck with its sockets; and the frames that it has put on the wire, and the
interfaces it has put them on, are those that its outcome says were sent. -/
theorem reply_refines_host (host : Host) (wire : Wire) (cfg : HandleOptions) (dec : Decision)
    (layer : DHCPv4) (replyType : ReplyType) {l : List (Event calls)} {o : Outcome}
    (h : (handleGenericReplyRaw host wire cfg dec layer replyType).Runs l o) :
    (∃ create attach send,
        o = handleGenericReply (host.withSockets create attach send) cfg dec layer replyType)
      ∧ l.filterMap sentOn = o.onWire wire := by
  -- what comes before the socket is the same on all of these hosts
  have hin : ∀ create attach send,
      replyIngress (host.withSockets create attach send) dec layer = replyIngress host dec layer :=
    fun _ _ _ => rfl
  unfold handleGenericReplyRaw handleGenericReplyBy at h
  cases hdrop : dec.dropReply with
  | true =>
    simp only [hdrop, if_true] at h
    obtain ⟨rfl, rfl⟩ := h.of_ret
    exact ⟨⟨none, none, host.send, (handleGenericReply_of_drop hdrop _ cfg layer replyType).symm⟩,
      rfl⟩
  | false =>
    simp only [hdrop, Bool.false_eq_true, if_false] at h
    cases hsrc : replyIngress host dec layer with
    | error e =>
      simp only [hsrc] at h
      obtain ⟨rfl, rfl⟩ := h.of_ret
      refine ⟨⟨none, none, host.send, ?_⟩, rfl⟩
      simp only [handleGenericReply, handleGenericReplyBy, hdrop, hin, hsrc, Bool.false_eq_true,
        if_false]
      rfl
    | ok p =>
      obtain ⟨srcIP, ifi⟩ := p
      simp only [hsrc] at h
      have hhead : ∀ create attach send,
          replyIPv4Header (host.withSockets create attach send) cfg = replyIPv4Header host cfg :=
        fun _ _ _ => rfl
      cases haddr : replyAddressing replyType srcIP (stripRelay layer) (replyIPv4Header host cfg)
          cfg.broadcastReplyL2Unicast with
      | error e =>
        simp only [haddr] at h
        obtain ⟨rfl, rfl⟩ := h.of_ret
        refine ⟨⟨none, none, host.send, ?_⟩, rfl⟩
        simp only [handleGenericReply, handleGenericReplyBy, hdrop, hin, hsrc, hhead, haddr,
          Bool.false_eq_true, if_false]
        rfl
      | ok q =>
        obtain ⟨dstMAC, layer', ipv4⟩ := q
        simp only [haddr] at h
        obtain ⟨hcases, hsent⟩ := deliverBy_runs h
        refine ⟨?_, hsent⟩
        have haddressed : ∀ create attach send,
            handleGenericReply (host.withSockets create attach send) cfg dec layer replyType
              = Id.run (deliverBy (host.withSockets create attach send).socket
                (host.withSockets create attach send) cfg dec replyType srcIP ifi dstMAC layer'
                ipv4) := fun create attach send =>
          handleGenericReply_of_addressed hdrop ((hin create attach send).trans hsrc) haddr
        rcases hcases with ⟨e, rfl⟩ | ⟨e, rfl⟩ | ⟨fate, r, rfl, rfl⟩
        · exact ⟨some e, none, host.send, by rw [haddressed]; rfl⟩
        · exact ⟨none, some e, host.send, by rw [haddressed]; rfl⟩
        · exact ⟨none, none, fate, by rw [haddressed]; rfl⟩

end Runs

/-- A kernel that grants everything, under descriptor 7. -/
def grants : Oracle calls where
  acquire _ := .ok 7
  use
    | .ignoreOutgoing | .attachFilter _ _ | .bind _ | .sendto _ _ => (none : Option Errno)
    | .recvfrom _ => RecvAnswer.received [] none
  release := none

/-- An ACK that goes out of two interfaces, on any machine. -/
theorem reply_refines_host_ack :
    twoNICHost.interfaces.1.map Interface.index = [2, 3]
      ∧ ∀ wire : Wire, ∃ l o, (handleGenericReplyRaw twoNICHost wire plainOptions
          { replyNICMatch := some (fun _ _ => true) } (ackOf [192, 168, 50, 77] [0, 0, 0, 0])
          unicastReply).Runs l o
        ∧ (∃ create attach send, o = handleGenericReply (twoNICHost.withSockets create attach send)
            plainOptions { replyNICMatch := some (fun _ _ => true) }
            (ackOf [192, 168, 50, 77] [0, 0, 0, 0]) unicastReply)
        ∧ l.filterMap sentOn = o.onWire wire
        ∧ (l.filterMap sentOn).map Prod.fst = [2, 3] := by
  refine ⟨rfl, fun wire => ?_⟩
  have hrun := (handleGenericReplyRaw twoNICHost wire plainOptions
    { replyNICMatch := some (fun _ _ => true) } (ackOf [192, 168, 50, 77] [0, 0, 0, 0])
    unicastReply).runs_eval grants
  obtain ⟨hhost, hsent⟩ := reply_refines_host _ _ _ _ _ _ hrun
  exact ⟨_, _, hrun, hhost, hsent, rfl⟩

import DhcpRelay.Reply
import DhcpRelay.RoundTrip

/-!
# Replies on several interfaces

A policy may send the replies of a client out of several interfaces. One IPv4
header is written for all of them and its source address rewritten from one
interface to the next, so what one interface leaves behind could show in the
frame of another. It does not: the header is carried along *up to its source
address*, and the source address is set anew wherever it matters.

`fanout_independent` draws the conclusion. What is done on an interface is what
would be done if it were the only one, whatever is done on the others and
whether or not it succeeds there.
-/

open Dhcp Relay

/-! ## The header, up to its source -/

section Loop

variable {host : Host} {replyType : ReplyType} {srcIP : IP} {ingress : Interface}
  {dstMAC : Bytes} {layer : DHCPv4}

/-- **The headers that the loop does not tell apart**: for a unicast reply, those
that differ in the source address alone. -/
def SameButSource (replyType : ReplyType) (a b : IPv4Header) : Prop :=
  if replyType = unicastReply then { a with srcIP := [] } = { b with srcIP := [] } else a = b

theorem SameButSource.symm {a b : IPv4Header} (h : SameButSource replyType a b) :
    SameButSource replyType b a := by
  unfold SameButSource at h ⊢
  split at h
  · next hu => rw [if_pos hu, h]
  · next hu => rw [if_neg hu, h]

/-- Setting the source address forgets which header it was set in. -/
theorem setSource_congr {a b : IPv4Header}
    (h : { a with srcIP := [] } = { b with srcIP := [] }) (ip : IP) :
    { a with srcIP := ip } = { b with srcIP := ip } :=
  congrArg (fun x : IPv4Header => { x with srcIP := ip }) h

/-- The header of an interface does not depend on the source address it is
made from. -/
theorem nicSource_congr {a b : IPv4Header} (h : SameButSource replyType a b)
    (nic : Interface) :
    nicSource host replyType srcIP ingress layer a nic
      = nicSource host replyType srcIP ingress layer b nic := by
  unfold SameButSource at h
  unfold nicSource
  by_cases hu : replyType = unicastReply
  · rw [if_pos hu] at h
    simp only [if_pos hu]
    split
    · split
      · rfl
      · rfl
      · rw [setSource_congr h]
    · rw [setSource_congr h]
  · rw [if_neg hu] at h
    rw [h]

/-- The header of an interface differs from the one it is made from in the
source address at most. -/
theorem sameButSource_of_nicSource {a b : IPv4Header} {nic : Interface}
    (h : nicSource host replyType srcIP ingress layer a nic = .ok b) :
    SameButSource replyType a b := by
  unfold nicSource at h
  unfold SameButSource
  by_cases hu : replyType = unicastReply
  · rw [if_pos hu] at h ⊢
    split at h
    · split at h
      · cases h
      · cases h
      · cases h
        rfl
    · cases h
      rfl
  · rw [if_neg hu] at h ⊢
    cases h
    rfl

/-! ## The loop, interface by interface -/

/-- Headers that are not told apart are sent alike. -/
theorem sendReplies_congr {a b : IPv4Header} (h : SameButSource replyType a b) (n : ℕ)
    (nics : List Interface) :
    sendReplies host replyType srcIP ingress dstMAC layer n a nics
      = sendReplies host replyType srcIP ingress dstMAC layer n b nics := by
  induction nics generalizing n with
  | nil => rfl
  | cons nic nics ih =>
    have hsame : nicSource host replyType srcIP ingress layer a nic
        = nicSource host replyType srcIP ingress layer b nic := nicSource_congr h nic
    cases hsrc : nicSource host replyType srcIP ingress layer a nic with
    | error e =>
      rw [sendReplies_of_error hsrc, sendReplies_of_error (hsame.symm.trans hsrc), ih]
    | ok header => rw [sendReplies_of_ok hsrc, sendReplies_of_ok (hsame.symm.trans hsrc)]

/-- **One interface after the other**: the loop does on the first what it would
do on it alone, and then what it would do on the rest alone. -/
theorem sendReplies_cons (n : ℕ) (ipv4 : IPv4Header) (nic : Interface)
    (nics : List Interface) :
    sendReplies host replyType srcIP ingress dstMAC layer n ipv4 (nic :: nics)
      = ((sendReplies host replyType srcIP ingress dstMAC layer n ipv4 [nic]).1
          ++ (sendReplies host replyType srcIP ingress dstMAC layer (n + 1) ipv4 nics).1,
        (sendReplies host replyType srcIP ingress dstMAC layer n ipv4 [nic]).2
          ++ (sendReplies host replyType srcIP ingress dstMAC layer (n + 1) ipv4 nics).2) := by
  cases hsrc : nicSource host replyType srcIP ingress layer ipv4 nic with
  | error e =>
    rw [sendReplies_of_error hsrc, sendReplies_of_error hsrc, sendReplies_nil, List.nil_append,
      List.singleton_append]
  | ok ipv4' =>
    have hrest : sendReplies host replyType srcIP ingress dstMAC layer (n + 1) ipv4' nics
        = sendReplies host replyType srcIP ingress dstMAC layer (n + 1) ipv4 nics :=
      sendReplies_congr (sameButSource_of_nicSource hsrc).symm (n + 1) nics
    rw [sendReplies_of_ok hsrc, sendReplies_of_ok hsrc, sendReplies_nil, hrest, List.append_nil,
      List.append_nil]

/-- **The loop is its interfaces, each on its own.** -/
theorem sendReplies_eq (n : ℕ) (ipv4 : IPv4Header) (nics : List Interface) :
    sendReplies host replyType srcIP ingress dstMAC layer n ipv4 nics
      = ((nics.zipIdx n).flatMap (fun p =>
          (sendReplies host replyType srcIP ingress dstMAC layer p.2 ipv4 [p.1]).1),
        (nics.zipIdx n).flatMap (fun p =>
          (sendReplies host replyType srcIP ingress dstMAC layer p.2 ipv4 [p.1]).2)) := by
  induction nics generalizing n with
  | nil => rfl
  | cons nic nics ih =>
    rw [sendReplies_cons, ih, List.zipIdx_cons, List.flatMap_cons, List.flatMap_cons]

/-- What is done on one interface: a frame is attempted and the error is that of
sending it, or there is an error and nothing is attempted. -/
theorem sendReplies_singleton (n : ℕ) (ipv4 : IPv4Header) (nic : Interface) :
    (∃ e, sendReplies host replyType srcIP ingress dstMAC layer n ipv4 [nic] = ([], [e]))
      ∨ ∃ header f, nicSource host replyType srcIP ingress layer ipv4 nic = .ok header
        ∧ f = { nic := nic.index, srcMAC := nic.hardwareAddr, dstMAC, ethernetType := 0x0800,
                ipv4 := header, srcPort := 67, dstPort := 68, message := layer }
        ∧ sendReplies host replyType srcIP ingress dstMAC layer n ipv4 [nic]
          = ([⟨.frame f, host.send n⟩], ((host.send n).map (fun e =>
              String.ofList nic.name ++ ": " ++ ("socket write error: " ++ e))).toList) := by
  cases hsrc : nicSource host replyType srcIP ingress layer ipv4 nic with
  | error e => exact .inl ⟨e, by rw [sendReplies_of_error hsrc, sendReplies_nil]⟩
  | ok header =>
    rw [sendReplies_of_ok hsrc, sendReplies_nil, List.append_nil, List.append_nil]
    rcases sendReply_cases host n nic dstMAC layer header with ⟨e, he⟩ | he
    · rw [he]
      exact .inl ⟨_, rfl⟩
    · refine .inr ⟨header, replyFrame nic dstMAC layer header, rfl, rfl, ?_⟩
      rw [he, Option.map_map]
      rfl

end Loop

/-! ## The handler on several interfaces -/

section Handler

variable {host : Host} {cfg : HandleOptions} {dec : Decision} {layer : DHCPv4}
  {replyType : ReplyType}

/-- **What a delivered frame is**: where its interface, its addresses and its
message come from. -/
theorem frame_of_mem_attempts {a : Attempt}
    (h : a ∈ (handleGenericReply host cfg dec layer replyType).attempts) :
    ∃ srcIP ifi dstMAC ipv4 nic header f,
      replyIngress host dec layer = .ok (srcIP, ifi)
        ∧ replyAddressing replyType srcIP (stripRelay layer) (replyIPv4Header host cfg)
            cfg.broadcastReplyL2Unicast = .ok (dstMAC, delivered replyType layer, ipv4)
        ∧ nic ∈ replyTargets host cfg dec.replyNICMatch ifi
        ∧ nicSource host replyType srcIP ifi (delivered replyType layer) ipv4 nic = .ok header
        ∧ a.emission = .frame f ∧ f.nic = nic.index ∧ f.srcMAC = nic.hardwareAddr
        ∧ f.ipv4 = header := by
  rcases handleGenericReply_cases host cfg dec layer replyType with
    ⟨-, he⟩ | ⟨hdrop, ⟨m, e, he⟩ | ⟨srcIP, ifi, dstMAC, ipv4, hin, haddr, hcreate, hbpf⟩⟩
  · rw [he] at h
    cases h
  · rw [he] at h
    cases h
  · rw [handleGenericReply_eq hdrop hin haddr hcreate hbpf, sendReplies_eq] at h
    obtain ⟨⟨nic, k⟩, hp, ha⟩ := List.mem_flatMap.mp h
    rcases sendReplies_singleton k ipv4 nic with ⟨e, he⟩ | ⟨header, f, hsrc, hf, he⟩
    · rw [he] at ha
      cases ha
    · rw [he, List.mem_singleton] at ha
      cases hf
      exact ⟨srcIP, ifi, dstMAC, ipv4, nic, header, _, hin, haddr,
        List.fst_mem_of_mem_zipIdx hp, hsrc, by rw [ha], rfl, rfl, rfl⟩

end Handler

/-! ## Each interface on its own -/

/-- The host as it would be if `t` were its only interface, and the frame on it
the `k`-th to be encoded and sent. -/
def Host.only (host : Host) (t : Interface) (k : ℕ) : Host :=
  { host with
    interfaces := ([t], none)
    serialize := fun n => host.serialize (k + n)
    send := fun n => host.send (k + n) }

/-- What would be done with a reply if `t` were the only target, and the frame
on it the `k`-th. -/
def aloneOn (host : Host) (cfg : HandleOptions) (dec : Decision) (layer : DHCPv4)
    (replyType : ReplyType) (t : Interface) (k : ℕ) : Outcome :=
  handleGenericReply (host.only t k) cfg { dec with replyNICMatch := some (fun _ _ => true) }
    layer replyType

section Alone

variable {host : Host} {cfg : HandleOptions} {dec : Decision} {layer : DHCPv4}
  {replyType : ReplyType} {srcIP : IP} {ifi t : Interface} {dstMAC : Bytes} {ipv4 : IPv4Header}

theorem mem_selectReplyInterfaces {accepts : Text → Text → Bool} {ifaces : List Interface}
    {t : Interface} :
    t ∈ selectReplyInterfaces accepts ifaces
      ↔ t ∈ ifaces ∧ t.up = true ∧ t.hardwareAddr ≠ []
        ∧ accepts t.name (hardwareAddrString t.hardwareAddr) = true := by
  simp only [selectReplyInterfaces, List.mem_filter, Bool.and_eq_true, bne_iff_ne, ne_eq,
    List.length_eq_zero_iff, and_assoc]

/-- **The targets of a reply** are what the selector accepts, or the ingress
interface alone where there is no selector or no cache, or nothing accepted. -/
theorem replyTargets_cases (host : Host) (cfg : HandleOptions)
    (sel : Option (Text → Text → Bool)) (ingress : Interface) :
    (replyTargets host cfg sel ingress = [ingress]
      ∧ ∀ accepts, sel = some accepts → cfg.replyInterfaceCache = true →
        selectReplyInterfaces accepts host.interfaces.1 = [])
    ∨ ∃ accepts, sel = some accepts ∧ cfg.replyInterfaceCache = true
      ∧ selectReplyInterfaces accepts host.interfaces.1 ≠ []
      ∧ replyTargets host cfg sel ingress
        = selectReplyInterfaces accepts host.interfaces.1 := by
  unfold replyTargets
  cases sel with
  | none => exact .inl ⟨rfl, fun accepts h => (Option.some_ne_none accepts h.symm).elim⟩
  | some accepts =>
    cases hcache : cfg.replyInterfaceCache with
    | false => exact .inl ⟨rfl, fun _ _ h => absurd h Bool.false_ne_true⟩
    | true =>
      by_cases hnil : selectReplyInterfaces accepts host.interfaces.1 = []
      · refine .inl ⟨if_pos hnil, fun accepts' h _ => ?_⟩
        cases h
        exact hnil
      · exact .inr ⟨accepts, rfl, rfl, hnil, if_neg hnil⟩

/-- A target is an interface that is up and has a hardware address, and without
a cache it is the ingress interface. -/
theorem usable_of_mem_replyTargets (hin : replyIngress host dec layer = .ok (srcIP, ifi))
    (ht : t ∈ replyTargets host cfg dec.replyNICMatch ifi) :
    t.up = true ∧ t.hardwareAddr ≠ [] ∧ (cfg.replyInterfaceCache = false → t = ifi) := by
  rcases replyTargets_cases host cfg dec.replyNICMatch ifi with ⟨h, -⟩ | ⟨accepts, -, hc, -, h⟩
  · rw [h] at ht
    cases List.mem_singleton.mp ht
    obtain ⟨-, ⟨subOpts, -, hcirc⟩, -⟩ := replyIngress_ok_iff.mp hin
    obtain ⟨-, -, hup, hhw⟩ := circuitInterface_ok_iff.mp hcirc
    exact ⟨hup, hhw, fun _ => rfl⟩
  · rw [h] at ht
    obtain ⟨-, hup, hhw, -⟩ := mem_selectReplyInterfaces.mp ht
    exact ⟨hup, hhw, fun h0 => absurd (hc.symm.trans h0) Bool.true_eq_false.mp⟩

/-- With a usable interface alone, the reply goes out of it. -/
theorem replyTargets_only (k : ℕ) (hup : t.up = true) (hhw : t.hardwareAddr ≠ [])
    (hcache : cfg.replyInterfaceCache = false → t = ifi) :
    replyTargets (host.only t k) cfg (some (fun _ _ => true)) ifi = [t] := by
  have hlen : (t.hardwareAddr.length != 0) = true := by
    rwa [bne_iff_ne, ne_eq, List.length_eq_zero_iff]
  cases hc : cfg.replyInterfaceCache with
  | false =>
    rw [hcache hc]
    simp only [replyTargets, hc, Bool.not_false, if_true]
  | true => simp [replyTargets, hc, selectReplyInterfaces, Host.only, hup, hlen]

/-- The loop on a host with one interface is the loop of the host on it. -/
theorem sendReplies_only (k : ℕ) :
    sendReplies (host.only t k) replyType srcIP ifi dstMAC layer 0 ipv4 [t]
      = sendReplies host replyType srcIP ifi dstMAC layer k ipv4 [t] := by
  have hsame : nicSource (host.only t k) replyType srcIP ifi layer ipv4 t
      = nicSource host replyType srcIP ifi layer ipv4 t := rfl
  have hsend : ∀ header, sendReply (host.only t k) 0 t dstMAC layer header
      = sendReply host k t dstMAC layer header := fun _ => rfl
  cases hsrc : nicSource host replyType srcIP ifi layer ipv4 t with
  | error e => rw [sendReplies_of_error (hsame.trans hsrc), sendReplies_of_error hsrc]; rfl
  | ok header => rw [sendReplies_of_ok (hsame.trans hsrc), sendReplies_of_ok hsrc, hsend]; rfl

/-- **A target on its own** is one step of the loop. -/
theorem aloneOn_eq (hdrop : dec.dropReply = false)
    (hin : replyIngress host dec layer = .ok (srcIP, ifi))
    (haddr : replyAddressing replyType srcIP (stripRelay layer) (replyIPv4Header host cfg)
      cfg.broadcastReplyL2Unicast = .ok (dstMAC, delivered replyType layer, ipv4))
    (hcreate : host.rawCreate = none) (hbpf : host.rawAttachBPF = none)
    (ht : t ∈ replyTargets host cfg dec.replyNICMatch ifi) (k : ℕ) :
    aloneOn host cfg dec layer replyType t k
      = { err := errorsJoin (sendReplies host replyType srcIP ifi dstMAC
            (delivered replyType layer) k ipv4 [t]).2
          layer := delivered replyType layer
          attempts := (sendReplies host replyType srcIP ifi dstMAC
            (delivered replyType layer) k ipv4 [t]).1 } := by
  obtain ⟨hup, hhw, hcache⟩ := usable_of_mem_replyTargets hin ht
  have hdrop' : { dec with replyNICMatch := some (fun _ _ => true) }.dropReply = false := hdrop
  have hin' : replyIngress (host.only t k) { dec with replyNICMatch := some (fun _ _ => true) }
      layer = .ok (srcIP, ifi) := hin
  have haddr' : replyAddressing replyType srcIP (stripRelay layer)
      (replyIPv4Header (host.only t k) cfg) cfg.broadcastReplyL2Unicast
        = .ok (dstMAC, delivered replyType layer, ipv4) := haddr
  rw [aloneOn, handleGenericReply_eq hdrop' hin' haddr' hcreate hbpf,
    replyTargets_only k hup hhw hcache, sendReplies_only]

/-- The errors of one interface: none, or one. -/
theorem errors_singleton (n : ℕ) :
    (sendReplies host replyType srcIP ifi dstMAC layer n ipv4 [t]).2
      = (errorsJoin (sendReplies host replyType srcIP ifi dstMAC layer n ipv4 [t]).2).toList := by
  rcases sendReplies_singleton n ipv4 t with ⟨e, he⟩ | ⟨header, f, -, -, he⟩
  · rw [he]
    rfl
  · rw [he]
    cases host.send n with
    | none => rfl
    | some e => rfl

end Alone

/-! ## Independence -/

/-- The targets as the selector means them: the usable interfaces of the
snapshot that it accepts, in the order of the snapshot and each once, when there
is any; the ingress interface alone otherwise. -/
structure Targets (host : Host) (cfg : HandleOptions) (sel : Option (Text → Text → Bool))
    (ingress : Interface) (targets : List Interface) : Prop where
  selected : ∀ accepts, sel = some accepts → cfg.replyInterfaceCache = true →
    (∃ t ∈ host.interfaces.1, t.up = true ∧ t.hardwareAddr ≠ []
      ∧ accepts t.name (hardwareAddrString t.hardwareAddr) = true) →
    targets.Sublist host.interfaces.1 ∧ (targets.map Interface.index).Nodup
      ∧ ∀ t, t ∈ targets ↔ t ∈ host.interfaces.1 ∧ t.up = true ∧ t.hardwareAddr ≠ []
        ∧ accepts t.name (hardwareAddrString t.hardwareAddr) = true
  ingress_only : (∀ accepts, sel = some accepts → cfg.replyInterfaceCache = true →
    ¬ ∃ t ∈ host.interfaces.1, t.up = true ∧ t.hardwareAddr ≠ []
      ∧ accepts t.name (hardwareAddrString t.hardwareAddr) = true) → targets = [ingress]

theorem selectReplyInterfaces_eq_nil_iff {accepts : Text → Text → Bool}
    {ifaces : List Interface} :
    selectReplyInterfaces accepts ifaces = []
      ↔ ¬ ∃ t ∈ ifaces, t.up = true ∧ t.hardwareAddr ≠ []
        ∧ accepts t.name (hardwareAddrString t.hardwareAddr) = true := by
  rw [List.eq_nil_iff_forall_not_mem, not_exists]
  exact forall_congr' (fun t => not_congr mem_selectReplyInterfaces)

theorem nodup_replyTargets {host : Host}
    (hdist : (host.interfaces.1.map Interface.index).Nodup) (cfg : HandleOptions)
    (sel : Option (Text → Text → Bool)) (ingress : Interface) :
    ((replyTargets host cfg sel ingress).map Interface.index).Nodup := by
  rcases replyTargets_cases host cfg sel ingress with ⟨h, -⟩ | ⟨accepts, -, -, -, h⟩
  · rw [h]
    exact List.nodup_singleton _
  · rw [h]
    exact hdist.sublist (List.filter_sublist.map Interface.index)

theorem targets_replyTargets {host : Host}
    (hdist : (host.interfaces.1.map Interface.index).Nodup) (cfg : HandleOptions)
    (sel : Option (Text → Text → Bool)) (ingress : Interface) :
    Targets host cfg sel ingress (replyTargets host cfg sel ingress) := by
  have hnodup := nodup_replyTargets hdist cfg sel ingress
  rcases replyTargets_cases host cfg sel ingress with
    ⟨h, hnil⟩ | ⟨accepts, hsel, hcache, hne, h⟩
  · constructor
    · intro accepts hsel hcache hex
      exact absurd hex (selectReplyInterfaces_eq_nil_iff.mp (hnil accepts hsel hcache))
    · exact fun _ => h
  · constructor
    · intro accepts' hsel' _ _
      cases hsel.symm.trans hsel'
      rw [h] at hnodup ⊢
      exact ⟨List.filter_sublist, hnodup, fun t => mem_selectReplyInterfaces⟩
    · intro hnone
      exact absurd (selectReplyInterfaces_eq_nil_iff.mpr (hnone accepts hsel hcache)) hne

/-- `errors.Join` is nil when no error is joined. -/
theorem errorsJoin_eq_none_iff {errs : List String} : errorsJoin errs = none ↔ errs = [] := by
  unfold errorsJoin
  split
  · next h => exact iff_of_true rfl h
  · next h => exact iff_of_false (Option.some_ne_none _) h

/-- What is done on a target on its own: at most one frame is attempted, out of
the target; there is an error exactly when none is sent; and the frame does not
depend on which frame it is. -/
structure OneFrame (t : Interface) (alone : ℕ → Outcome) : Prop where
  length_le : ∀ k, (alone k).attempts.length ≤ 1
  frame : ∀ k, ∀ a ∈ (alone k).attempts, ∃ f : Frame, a.emission = .frame f
    ∧ f.nic = t.index ∧ f.srcMAC = t.hardwareAddr
  err_iff : ∀ k, (alone k).err = none ↔ (alone k).sent.length = 1
  same : ∀ k k', ∀ a ∈ (alone k).attempts, ∀ b ∈ (alone k').attempts, a.emission = b.emission

/-- Interfaces with distinct indices that get one frame each get distinct
frames. -/
theorem pairwise_fanout {targets : List Interface} {alone : Interface → ℕ → Outcome}
    (hnodup : (targets.map Interface.index).Nodup) (hone : ∀ t ∈ targets, OneFrame t (alone t)) :
    (targets.zipIdx.flatMap (fun p => (alone p.1 p.2).attempts)).Pairwise (fun a b =>
      ∀ f g, a.emission = .frame f → b.emission = .frame g → f.nic ≠ g.nic) := by
  rw [List.pairwise_flatMap]
  constructor
  · intro p hp
    have hle := (hone p.1 (List.fst_mem_of_mem_zipIdx hp)).length_le p.2
    rcases Nat.le_one_iff_eq_zero_or_eq_one.mp hle with h | h
    · rw [List.length_eq_zero_iff.mp h]
      exact List.Pairwise.nil
    · obtain ⟨a, ha⟩ := List.length_eq_one_iff.mp h
      rw [ha]
      exact List.pairwise_singleton _ a
  · rw [← List.zipIdx_map_fst 0 targets, List.map_map] at hnodup
    have hpair : targets.zipIdx.Pairwise (fun p q => p.1.index ≠ q.1.index) :=
      List.pairwise_map.mp hnodup
    refine hpair.imp_of_mem (fun {p q} hp hq hne a ha b hb f g hf hg => ?_)
    obtain ⟨f', hf', hnic, -⟩ := (hone p.1 (List.fst_mem_of_mem_zipIdx hp)).frame p.2 a ha
    obtain ⟨g', hg', hnic', -⟩ := (hone q.1 (List.fst_mem_of_mem_zipIdx hq)).frame q.2 b hb
    cases hf.symm.trans hf'
    cases hg.symm.trans hg'
    rwa [hnic, hnic']

section Independence

variable {host : Host} {cfg : HandleOptions} {dec : Decision} {layer : DHCPv4}
  {replyType : ReplyType} {srcIP : IP} {ifi t : Interface} {dstMAC : Bytes} {ipv4 : IPv4Header}

/-- Without a socket nothing is attempted, on any interface. -/
theorem failed_of_no_socket (hdrop : dec.dropReply = false)
    (hsock : ¬ (host.rawCreate = none ∧ host.rawAttachBPF = none)) :
    ∃ m e, handleGenericReply host cfg dec layer replyType = .failed m e := by
  rcases handleGenericReply_cases host cfg dec layer replyType with
    ⟨htrue, -⟩ | ⟨-, hfailed | ⟨-, -, -, -, -, -, hcreate, hbpf⟩⟩
  · rw [hdrop] at htrue
    cases htrue
  · exact hfailed
  · exact absurd ⟨hcreate, hbpf⟩ hsock

theorem aloneOn_of_no_socket (hdrop : dec.dropReply = false)
    (hsock : ¬ (host.rawCreate = none ∧ host.rawAttachBPF = none)) (t : Interface) (k : ℕ) :
    ∃ m e, aloneOn host cfg dec layer replyType t k = .failed m e := by
  have hdrop' : { dec with replyNICMatch := some (fun _ _ => true) }.dropReply = false := hdrop
  have hsock' : ¬ ((host.only t k).rawCreate = none ∧ (host.only t k).rawAttachBPF = none) := hsock
  exact failed_of_no_socket hdrop' hsock'

-- What a reply needs to be delivered at all: it is not dropped, it names an interface
-- of this relay, and it can be addressed.
variable (hdrop : dec.dropReply = false)
  (hin : replyIngress host dec layer = .ok (srcIP, ifi))
  (haddr : replyAddressing replyType srcIP (stripRelay layer) (replyIPv4Header host cfg)
    cfg.broadcastReplyL2Unicast = .ok (dstMAC, delivered replyType layer, ipv4))

include hdrop hin haddr

/-- **The shape of a target on its own**: an error and nothing attempted, or one
frame, made from the header of the interface. -/
theorem aloneOn_cases (ht : t ∈ replyTargets host cfg dec.replyNICMatch ifi) (k : ℕ) :
    (∃ e, (aloneOn host cfg dec layer replyType t k).attempts = []
        ∧ (aloneOn host cfg dec layer replyType t k).err = some e)
      ∨ ∃ header, nicSource host replyType srcIP ifi (delivered replyType layer) ipv4 t
          = .ok header
        ∧ (aloneOn host cfg dec layer replyType t k).attempts
          = [⟨.frame { nic := t.index, srcMAC := t.hardwareAddr, dstMAC, ethernetType := 0x0800,
                       ipv4 := header, srcPort := 67, dstPort := 68,
                       message := delivered replyType layer }, host.send k⟩]
        ∧ ((aloneOn host cfg dec layer replyType t k).err = none ↔ host.send k = none) := by
  by_cases hsock : host.rawCreate = none ∧ host.rawAttachBPF = none
  · rw [aloneOn_eq hdrop hin haddr hsock.1 hsock.2 ht k]
    rcases sendReplies_singleton k ipv4 t with ⟨e, he⟩ | ⟨header, f, hsrc, rfl, he⟩
    · exact .inl ⟨_, by rw [he], by rw [he]; rfl⟩
    · refine .inr ⟨header, hsrc, by rw [he], ?_⟩
      rw [he, errorsJoin_eq_none_iff, Option.toList_eq_nil_iff, Option.map_eq_none_iff]
  · obtain ⟨m, e, he⟩ := aloneOn_of_no_socket hdrop hsock t k
    exact .inl ⟨e, by rw [he]; rfl, by rw [he]; rfl⟩

theorem oneFrame_aloneOn (ht : t ∈ replyTargets host cfg dec.replyNICMatch ifi) :
    OneFrame t (aloneOn host cfg dec layer replyType t) := by
  have hshape := aloneOn_cases hdrop hin haddr ht
  constructor
  · intro k
    rcases hshape k with ⟨e, ha, -⟩ | ⟨header, -, ha, -⟩
    · rw [ha]
      exact Nat.zero_le 1
    · rw [ha]
      exact Nat.le_refl 1
  · intro k a h
    rcases hshape k with ⟨e, ha, -⟩ | ⟨header, -, ha, -⟩
    · rw [ha] at h
      cases h
    · rw [ha, List.mem_singleton] at h
      rw [h]
      exact ⟨_, rfl, rfl, rfl⟩
  · intro k
    rcases hshape k with ⟨e, ha, he⟩ | ⟨header, -, ha, he⟩
    · rw [Outcome.sent, ha, he]
      simp
    · rw [he, Outcome.sent, ha]
      cases host.send k with
      | none => simp
      | some e => simp
  · intro k k' a h b h'
    rcases hshape k with ⟨e, ha, -⟩ | ⟨header, hsrc, ha, -⟩
    · rw [ha] at h
      cases h
    · rcases hshape k' with ⟨e, hb, -⟩ | ⟨header', hsrc', hb, -⟩
      · rw [hb] at h'
        cases h'
      · cases hsrc.symm.trans hsrc'
        rw [ha, List.mem_singleton] at h
        rw [hb, List.mem_singleton] at h'
        rw [h, h']

/-- What is attempted is what is attempted on each target on its own. -/
theorem attempts_fanout :
    (handleGenericReply host cfg dec layer replyType).attempts
      = (replyTargets host cfg dec.replyNICMatch ifi).zipIdx.flatMap (fun p =>
          (aloneOn host cfg dec layer replyType p.1 p.2).attempts) := by
  by_cases hsock : host.rawCreate = none ∧ host.rawAttachBPF = none
  · rw [handleGenericReply_eq hdrop hin haddr hsock.1 hsock.2, sendReplies_eq]
    refine List.flatMap_congr (fun p hp => ?_)
    rw [aloneOn_eq hdrop hin haddr hsock.1 hsock.2 (List.fst_mem_of_mem_zipIdx hp)]
  · have hwhole : ∃ m e, handleGenericReply host cfg dec layer replyType = .failed m e :=
      failed_of_no_socket hdrop hsock
    have halone : ∀ t k, ∃ m e, aloneOn host cfg dec layer replyType t k = .failed m e :=
      aloneOn_of_no_socket hdrop hsock
    obtain ⟨m, e, he⟩ := hwhole
    rw [he]
    refine (List.flatMap_eq_nil_iff.mpr (fun p _ => ?_)).symm
    obtain ⟨m, e, he⟩ := halone p.1 p.2
    rw [he]
    rfl

/-- The error is that of each target on its own, joined. -/
theorem err_fanout (hcreate : host.rawCreate = none) (hbpf : host.rawAttachBPF = none) :
    (handleGenericReply host cfg dec layer replyType).err
      = errorsJoin ((replyTargets host cfg dec.replyNICMatch ifi).zipIdx.filterMap (fun p =>
          (aloneOn host cfg dec layer replyType p.1 p.2).err)) := by
  rw [handleGenericReply_eq hdrop hin haddr hcreate hbpf, sendReplies_eq,
    List.filterMap_eq_flatMap_toList]
  refine congrArg errorsJoin (List.flatMap_congr (fun p hp => ?_))
  rw [aloneOn_eq hdrop hin haddr hcreate hbpf (List.fst_mem_of_mem_zipIdx hp)]
  exact errors_singleton p.2

end Independence

/-- **Fan-out is independent per interface.** A reply that can be delivered goes
out of the interfaces that its selector means. What is attempted on each of
them, and the error of each, is what would be attempted if it were the only one;
no interface gets two frames; and there is an error exactly when some interface
fails. -/
theorem fanout_independent (host : Host)
    (hdist : (host.interfaces.1.map Interface.index).Nodup) (cfg : HandleOptions)
    (dec : Decision) (hdrop : dec.dropReply = false) (layer : DHCPv4)
    (hy : layer.yourClientIP.length = 4) (hc : layer.clientIP.length = 4)
    (replyType : ReplyType) (hrt : replyType = unicastReply ∨ replyType = broadcastReply)
    (srcIP : IP) (ifi : Interface) (hin : replyIngress host dec layer = .ok (srcIP, ifi)) :
    ∃ targets, Targets host cfg dec.replyNICMatch ifi targets
      ∧ (handleGenericReply host cfg dec layer replyType).attempts
        = targets.zipIdx.flatMap (fun p =>
            (aloneOn host cfg dec layer replyType p.1 p.2).attempts)
      ∧ (handleGenericReply host cfg dec layer replyType).attempts.Pairwise (fun a b =>
          ∀ f g, a.emission = .frame f → b.emission = .frame g → f.nic ≠ g.nic)
      ∧ (∀ t ∈ targets, OneFrame t (aloneOn host cfg dec layer replyType t))
      ∧ (host.rawCreate = none → host.rawAttachBPF = none →
          (handleGenericReply host cfg dec layer replyType).err
            = errorsJoin (targets.zipIdx.filterMap (fun p =>
                (aloneOn host cfg dec layer replyType p.1 p.2).err))
          ∧ ((handleGenericReply host cfg dec layer replyType).err = none
            ↔ ∀ p ∈ targets.zipIdx,
                (aloneOn host cfg dec layer replyType p.1 p.2).err = none)) := by
  have hy' : (stripRelay layer).yourClientIP.length = 4 := hy
  obtain ⟨dstMAC, layer', ipv4, haddr⟩ := replyAddressing_ok hrt srcIP hy' hc
    (replyIPv4Header host cfg) cfg.broadcastReplyL2Unicast
  cases layer_of_replyAddressing haddr
  have hone : ∀ t ∈ replyTargets host cfg dec.replyNICMatch ifi,
      OneFrame t (aloneOn host cfg dec layer replyType t) := fun t ht =>
    oneFrame_aloneOn hdrop hin haddr ht
  have hattempts := attempts_fanout hdrop hin haddr
  refine ⟨_, targets_replyTargets hdist cfg dec.replyNICMatch ifi, hattempts, ?_, hone, ?_⟩
  · rw [hattempts]
    exact pairwise_fanout (nodup_replyTargets hdist cfg dec.replyNICMatch ifi) hone
  · intro hcreate hbpf
    have herr := err_fanout hdrop hin haddr hcreate hbpf
    refine ⟨herr, ?_⟩
    rw [herr, errorsJoin_eq_none_iff, List.filterMap_eq_nil_iff]

/-- A host whose second interface has two addresses, of which the first is on
another network than the clients behind it. -/
def twoNICHost : Host :=
  .ofInterfaces
    [(⟨2, "eth0".toList, [2, 0, 0, 0, 0, 2], true⟩,
      [.ipNet ⟨[192, 168, 50, 1], [255, 255, 255, 0]⟩]),
     (⟨3, "eth1".toList, [2, 0, 0, 0, 0, 3], true⟩,
      [.ipNet ⟨[10, 0, 0, 1], [255, 255, 255, 0]⟩,
       .ipNet ⟨[192, 168, 9, 1], [255, 255, 255, 0]⟩])]

/-- An ACK that comes back to the relay at 192.168.50.1, for a client behind the interface
with index 2. -/
def ackOf (yiaddr ciaddr : IP) : DHCPv4 :=
  { operation := opReply
    relayHops := 1
    clientHWAddr := [2, 0, 0, 0, 0, 1]
    yourClientIP := yiaddr
    clientIP := ciaddr
    relayAgentIP := [192, 168, 50, 1]
    options := [newDHCPOption optMessageType [5], installedOption82 2 [] []] }

/-- A reply that is sent out of both interfaces. -/
theorem fanout_independent_twoNICs :
    ∃ targets, Targets twoNICHost plainOptions (some (fun _ _ => true))
        ⟨2, "eth0".toList, [2, 0, 0, 0, 0, 2], true⟩ targets
      ∧ (handleGenericReply twoNICHost plainOptions { replyNICMatch := some (fun _ _ => true) }
          (ackOf [192, 168, 50, 77] [0, 0, 0, 0]) unicastReply).attempts
        = targets.zipIdx.flatMap (fun p =>
            (aloneOn twoNICHost plainOptions { replyNICMatch := some (fun _ _ => true) }
              (ackOf [192, 168, 50, 77] [0, 0, 0, 0]) unicastReply p.1 p.2).attempts)
      ∧ (handleGenericReply twoNICHost plainOptions { replyNICMatch := some (fun _ _ => true) }
          (ackOf [192, 168, 50, 77] [0, 0, 0, 0]) unicastReply).attempts.length = 2 := by
  obtain ⟨targets, ht, ha, -⟩ := fanout_independent twoNICHost (by decide) plainOptions
    { replyNICMatch := some (fun _ _ => true) } rfl (ackOf [192, 168, 50, 77] [0, 0, 0, 0])
    rfl rfl unicastReply (.inl rfl) [192, 168, 50, 1]
    ⟨2, "eth0".toList, [2, 0, 0, 0, 0, 2], true⟩ (by rfl)
  exact ⟨targets, ht, ha, by decide⟩

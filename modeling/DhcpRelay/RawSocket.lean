import DhcpRelay.Handles
import DhcpRelay.Bpf
import DhcpRelay.Net

/-!
# Raw sockets

`Raw` wraps a packet socket (`pkg/sockets/raw.go`). Its methods are programs that make
system calls on descriptors, in the sense of `Handles`: what the kernel answers is any
answer there can be. An `os.File` keeps the descriptor and whether it was closed, so that
a second `Close` is refused without a call. A call that would block is retried by the
runtime, so `EAGAIN` is no answer here; a deadline that has expired is.

A `Raw` may be created again while it is open, and then the new descriptor replaces the
old one. `Raw.Holds` says which descriptors are due to a `Raw`: one if it is open, and
none otherwise. Each method keeps to it, and so does any sequence of calls
(`wp_session`).
-/

namespace Sockets

open Handles

/-! ## System calls -/

/-- An error of a system call. -/
inductive Errno where
  /-- `ENOPROTOOPT`: the kernel has no such option. -/
  | noProtoOpt
  | other (text : String)
  deriving DecidableEq, Repr

def Errno.text : Errno → String
  | .noProtoOpt => "protocol not available"
  | .other text => text

/-- `SockaddrLinklayer`: an interface and an address on it. -/
structure SockaddrLinklayer where
  protocol : UInt16
  ifindex : ℤ
  halen : UInt8 := 0
  addr : Fin 8 → UInt8 := fun _ => 0
  deriving DecidableEq

/-- What can be done to a packet socket. -/
inductive SockOp where
  /-- `setsockopt(PACKET_IGNORE_OUTGOING)`. -/
  | ignoreOutgoing
  /-- `setsockopt(SO_ATTACH_FILTER)`, with the length that the kernel is told. -/
  | attachFilter (len : UInt16) (filter : List Bpf.SockFilter)
  | bind (sa : SockaddrLinklayer)
  | sendto (buf : Bytes) (sa : SockaddrLinklayer)
  /-- `recvfrom` into a buffer of so many bytes. -/
  | recvfrom (len : ℕ)

/-- What `recvfrom` comes to, with the runtime that waits for it. -/
inductive RecvAnswer where
  /-- The runtime gives up: a deadline, or the file is being closed. -/
  | interrupted (e : String)
  | failed (e : Errno)
  /-- A frame, from a link layer address or from something else. -/
  | received (data : Bytes) (sa : Option SockaddrLinklayer)

/-- The answers: an error or none, but for `recvfrom`. -/
def SockOp.Answer : SockOp → Type
  | .ignoreOutgoing | .attachFilter _ _ | .bind _ | .sendto _ _ => Option Errno
  | .recvfrom _ => RecvAnswer

/-- The calls on packet sockets: a socket is opened for a protocol. -/
abbrev calls : Sig where
  Handle := ℕ
  Req := UInt16
  Op := SockOp
  Ans := SockOp.Answer
  Err := Errno

/-! ## Files -/

/-- An `os.File` on a descriptor. -/
structure File where
  fd : ℕ
  closed : Bool := false
  deriving DecidableEq, Repr

/-- `File.Close`. -/
def File.close (f : File) : Prog calls (File × Option String) :=
  if f.closed then .ret (f, some "close af-packet: file already closed")
  else .release f.fd fun err =>
    .ret ({ f with closed := true }, err.map (fun e => "close af-packet: " ++ e.text))

/-- What the runtime says of a call on a closed file. -/
def errFileClosing : String := "use of closed file"

/-! ## `Raw` -/

/-- **`Raw`**: a socket that is not created yet has no file. -/
structure Raw where
  f : Option File := none
  deriving DecidableEq, Repr

/-- `ErrNotInitialized`. -/
def errNotInitialized : String := "socket not initialized"

/-- The end of `Create`: the descriptor gets a file, and takes the place of the one that
the socket had. -/
def Raw.setFile (r : Raw) (fd : ℕ) : Prog calls (Raw × Option String) :=
  match r.f with
  | none => .ret (⟨some { fd }⟩, none)
  | some old => old.close >>= fun _ => .ret (⟨some { fd }⟩, none)

/-- **`Create`**. A kernel without `PACKET_IGNORE_OUTGOING` will do. -/
def Raw.create (r : Raw) (protocol : UInt16) : Prog calls (Raw × Option String) :=
  .acquire protocol fun x =>
    match x with
    | .error e => .ret (r, some e.text)
    | .ok fd =>
      .use fd .ignoreOutgoing fun (err : Option Errno) =>
        match err with
        | some (.other e) =>
          .release fd fun _ => .ret (r, some ("set PACKET_IGNORE_OUTGOING: " ++ e))
        | none | some .noProtoOpt => r.setFile fd

/-- `Close`. -/
def Raw.close (r : Raw) : Prog calls (Raw × Option String) :=
  match r.f with
  | none => .ret (r, some errNotInitialized)
  | some f => f.close >>= fun x => .ret (⟨some x.1⟩, x.2)

/-- `SetReadDeadline`, which is a matter of the runtime: no call is made. -/
def Raw.setReadDeadline (r : Raw) : Option String :=
  match r.f with
  | none => some errNotInitialized
  | some f => if f.closed then some errFileClosing else none

/-- `control`: a call on the descriptor, while the file is open. -/
def Raw.control (r : Raw) (call : ℕ → Prog calls (Option String)) : Prog calls (Option String) :=
  match r.f with
  | none => .ret (some errNotInitialized)
  | some f => if f.closed then .ret (some errFileClosing) else call f.fd

/-- `setLinkLayerAddr`. -/
def setLinkLayerAddr (sa : SockaddrLinklayer) (hwAddr : Bytes) :
    Except String SockaddrLinklayer :=
  if hwAddr = [] then .ok sa
  else if hwAddr.length > 8 then
    .error ("hardware address length " ++ toString hwAddr.length
      ++ " exceeds sockaddr capacity 8")
  else
    .ok { sa with
      halen := hwAddr.length.toUInt8
      addr := fun i => hwAddr[i.val]?.getD (sa.addr i) }

/-- `Bind`. -/
def Raw.bind (r : Raw) (ifIndex : ℤ) (hwAddr : Bytes) (protocol : UInt16) :
    Prog calls (Option String) :=
  match setLinkLayerAddr { protocol, ifindex := ifIndex } hwAddr with
  | .error e => .ret (some e)
  | .ok sa => r.control fun fd =>
    .use fd (.bind sa) fun (err : Option Errno) => .ret (err.map Errno.text)

/-- `AttachBPF`. -/
def Raw.attachBPF (r : Raw) (bytecode : List Bpf.SockFilter) : Prog calls (Option String) :=
  if bytecode.length = 0 then .ret none
  else r.control fun fd =>
    .use fd (.attachFilter bytecode.length.toUInt16 bytecode) fun (err : Option Errno) =>
      .ret (err.map Errno.text)

/-- What `Receive` returns: the count, the frame in the buffer, where it came from, and
the error. -/
structure Received where
  n : ℤ := 0
  data : Bytes := []
  sall : Option SockaddrLinklayer := none
  err : Option String

/-- **`Receive`** into a buffer of `len` bytes. A failed call has count -1. -/
def Raw.receive (r : Raw) (len : ℕ) : Prog calls Received :=
  match r.f with
  | none => .ret { err := some errNotInitialized }
  | some f =>
    if f.closed then .ret { err := some errFileClosing }
    else .use f.fd (.recvfrom len) fun (x : RecvAnswer) =>
      match x with
      | .interrupted e => .ret { err := some e }
      | .failed e => .ret { n := -1, err := some e.text }
      | .received data none => .ret { n := data.length, data, err := some "unexpected source" }
      | .received data (some sa) => .ret { n := data.length, data, sall := some sa, err := none }

/-- **`Send`**: the bytes sent, or the error. -/
def Raw.send (r : Raw) (ifIndex : ℤ) (hwAddr : Bytes) (protocol : UInt16) (buf : Bytes) :
    Prog calls (ℕ × Option String) :=
  match r.f with
  | none => .ret (0, some errNotInitialized)
  | some f =>
    match setLinkLayerAddr { ifindex := ifIndex, protocol } hwAddr with
    | .error e => .ret (0, some e)
    | .ok sa =>
      if f.closed then .ret (0, some errFileClosing)
      else .use f.fd (.sendto buf sa) fun (err : Option Errno) =>
        match err with
        | some e => .ret (0, some e.text)
        | none => .ret (buf.length, none)

/-! ## Which descriptors a socket has -/

/-- **The descriptors due to a socket**: that of its file, if the file is open. -/
def Raw.Holds (r : Raw) (own : Set ℕ) : Prop :=
  own = {fd | r.f = some { fd }}

theorem holds_zero : ({} : Raw).Holds ∅ := by
  ext fd
  simp

theorem holds_open (fd : ℕ) : Raw.Holds ⟨some { fd }⟩ {fd} := by
  ext fd'
  simp [eq_comm]

theorem holds_closed {f : File} (hf : f.closed = true) : Raw.Holds ⟨some f⟩ ∅ := by
  ext fd
  simp only [Set.mem_empty_iff_false, Set.mem_ofPred_eq, Option.some.injEq, false_iff]
  rintro rfl
  cases hf

/-- A descriptor is due to a socket if its file is open. -/
theorem Raw.Holds.eq_of_open {r : Raw} {own : Set ℕ} (h : r.Holds own) {f : File}
    (hr : r.f = some f) (hf : f.closed = false) : own = {f.fd} := by
  obtain ⟨fd, closed⟩ := f
  cases hf
  rw [h, hr]
  exact (holds_open fd).symm

theorem Raw.Holds.eq_of_closed {r : Raw} {own : Set ℕ} (h : r.Holds own) {f : File}
    (hr : r.f = some f) (hf : f.closed = true) : own = ∅ := by
  rw [h, hr]
  exact (holds_closed hf).symm

theorem Raw.Holds.eq_of_none {r : Raw} {own : Set ℕ} (h : r.Holds own) (hr : r.f = none) :
    own = ∅ := by
  rw [h, hr]
  exact holds_zero.symm

/-- **A file gives its descriptor back**, and the rest of what is owned stays. -/
theorem wp_file_close {f : File} {own : Set ℕ} (hf : f.closed = false → f.fd ∈ own) :
    f.close.wp (fun x own' => x.1.closed = true
      ∧ own' = if f.closed then own else own \ {f.fd}) own := by
  unfold File.close
  split
  · next hc => exact ⟨hc, rfl⟩
  · next hc =>
    exact ⟨hf (Bool.eq_false_of_not_eq_true hc), fun err => ⟨rfl, rfl⟩⟩

/-- The descriptor of the old file goes, and the new one stays. -/
theorem wp_setFile {r : Raw} {own : Set ℕ} (h : r.Holds own) {fd : ℕ} (hfd : fd ∉ own) :
    (r.setFile fd).wp (fun x own' => x.1.Holds own' ∧ x.2 = none) (insert fd own) := by
  unfold Raw.setFile
  cases hr : r.f with
  | none =>
    show Raw.Holds ⟨some { fd }⟩ (insert fd own) ∧ none = none
    rw [h.eq_of_none hr, insert_empty_eq]
    exact ⟨holds_open fd, rfl⟩
  | some old =>
    refine Prog.wp_bind (Prog.wp_mono (wp_file_close fun hf => ?_) ?_)
    · rw [h.eq_of_open hr hf]
      exact Set.mem_insert_of_mem fd rfl
    · rintro ⟨f', err'⟩ own' ⟨-, rfl⟩
      refine ⟨?_, rfl⟩
      cases hf : old.closed with
      | true =>
        rw [if_pos rfl, h.eq_of_closed hr hf, insert_empty_eq]
        exact holds_open fd
      | false =>
        have hne : fd ∉ ({old.fd} : Set ℕ) := h.eq_of_open hr hf ▸ hfd
        rw [if_neg Bool.false_ne_true, h.eq_of_open hr hf, Set.insert_sdiff_of_notMem _ hne,
          sdiff_self, Set.bot_eq_empty, insert_empty_eq]
        exact holds_open fd

/-- **`Create` leaves one descriptor**: the new one, or if it fails what there was. -/
theorem wp_create {r : Raw} {own : Set ℕ} (h : r.Holds own) (protocol : UInt16) :
    (r.create protocol).wp (fun x own' => x.1.Holds own' ∧ (x.2 = none ∨ x.1 = r)) own := by
  unfold Raw.create
  refine ⟨fun e => ⟨h, .inr rfl⟩, fun fd hfd => ⟨Set.mem_insert fd own, ?_⟩⟩
  have hset : (r.setFile fd).wp (fun x own' => x.1.Holds own' ∧ (x.2 = none ∨ x.1 = r))
      (insert fd own) :=
    Prog.wp_mono (wp_setFile h hfd) fun x own' hx => ⟨hx.1, .inl hx.2⟩
  intro (err : Option Errno)
  cases err with
  | none => exact hset
  | some e =>
    cases e with
    | noProtoOpt => exact hset
    | other e =>
      refine ⟨Set.mem_insert fd own, fun _ => ⟨?_, .inr rfl⟩⟩
      rw [Set.insert_sdiff_self_of_notMem hfd]
      exact h

/-- **`Close` leaves none.** -/
theorem wp_close {r : Raw} {own : Set ℕ} (h : r.Holds own) :
    r.close.wp (fun x own' => x.1.Holds own' ∧ own' = ∅) own := by
  unfold Raw.close
  cases hr : r.f with
  | none => exact ⟨h, h.eq_of_none hr⟩
  | some f =>
    refine Prog.wp_bind ?_
    refine Prog.wp_mono (wp_file_close fun hf => ?_) ?_
    · rw [h.eq_of_open hr hf]
      exact rfl
    · rintro ⟨f', err⟩ own' ⟨hclosed, rfl⟩
      have hnone : (if f.closed then own else own \ {f.fd}) = ∅ := by
        cases hf : f.closed with
        | true => exact h.eq_of_closed hr hf
        | false => rw [if_neg Bool.false_ne_true, h.eq_of_open hr hf, sdiff_self, Set.bot_eq_empty]
      refine ⟨?_, hnone⟩
      rw [hnone]
      exact holds_closed hclosed

/-- A call through `control` is on the descriptor of the socket. -/
theorem wp_control {r : Raw} {own : Set ℕ} (h : r.Holds own)
    {call : ℕ → Prog calls (Option String)}
    (hcall : ∀ fd ∈ own, (call fd).wp (fun _ own' => own' = own) own) :
    (r.control call).wp (fun _ own' => own' = own) own := by
  unfold Raw.control
  cases hr : r.f with
  | none => exact rfl
  | some f =>
    dsimp only
    split
    · exact rfl
    · next hc =>
      refine hcall f.fd ?_
      rw [h.eq_of_open hr (Bool.eq_false_of_not_eq_true hc)]
      exact rfl

theorem wp_bindAddr {r : Raw} {own : Set ℕ} (h : r.Holds own) (ifIndex : ℤ) (hwAddr : Bytes)
    (protocol : UInt16) : (r.bind ifIndex hwAddr protocol).wp (fun _ own' => own' = own) own := by
  unfold Raw.bind
  cases setLinkLayerAddr { protocol, ifindex := ifIndex } hwAddr with
  | error e => exact rfl
  | ok sa => exact wp_control h fun fd hfd => ⟨hfd, fun err => rfl⟩

theorem wp_attachBPF {r : Raw} {own : Set ℕ} (h : r.Holds own) (bytecode : List Bpf.SockFilter) :
    (r.attachBPF bytecode).wp (fun _ own' => own' = own) own := by
  unfold Raw.attachBPF
  split
  · exact rfl
  · exact wp_control h fun fd hfd => ⟨hfd, fun err => rfl⟩

theorem wp_receive {r : Raw} {own : Set ℕ} (h : r.Holds own) (len : ℕ) :
    (r.receive len).wp (fun _ own' => own' = own) own := by
  unfold Raw.receive
  cases hr : r.f with
  | none => exact rfl
  | some f =>
    dsimp only
    split
    · exact rfl
    · next hc =>
      have hown : f.fd ∈ own := by
        rw [h.eq_of_open hr (Bool.eq_false_of_not_eq_true hc)]
        exact rfl
      refine ⟨hown, ?_⟩
      intro (x : RecvAnswer)
      cases x with
      | interrupted e => exact rfl
      | failed e => exact rfl
      | received data sa =>
        cases sa with
        | none => exact rfl
        | some sa => exact rfl

theorem wp_send {r : Raw} {own : Set ℕ} (h : r.Holds own) (ifIndex : ℤ) (hwAddr : Bytes)
    (protocol : UInt16) (buf : Bytes) :
    (r.send ifIndex hwAddr protocol buf).wp (fun _ own' => own' = own) own := by
  unfold Raw.send
  cases hr : r.f with
  | none => exact rfl
  | some f =>
    dsimp only
    split
    · exact rfl
    · split
      · exact rfl
      · next hc =>
        have hown : f.fd ∈ own := by
          rw [h.eq_of_open hr (Bool.eq_false_of_not_eq_true hc)]
          exact rfl
        refine ⟨hown, ?_⟩
        intro (err : Option Errno)
        cases err with
        | none => exact rfl
        | some e => exact rfl

/-! ## Any calls in any order -/

/-- A call of a method. -/
inductive Method where
  | create (protocol : UInt16)
  | close
  | setReadDeadline
  | bind (ifIndex : ℤ) (hwAddr : Bytes) (protocol : UInt16)
  | attachBPF (bytecode : List Bpf.SockFilter)
  | receive (len : ℕ)
  | send (ifIndex : ℤ) (hwAddr : Bytes) (protocol : UInt16) (buf : Bytes)

/-- What is left of the socket after it. -/
def Method.run (r : Raw) : Method → Prog calls Raw
  | .create protocol => r.create protocol >>= fun x => .ret x.1
  | .close => r.close >>= fun x => .ret x.1
  | .setReadDeadline => .ret r
  | .bind ifIndex hwAddr protocol => r.bind ifIndex hwAddr protocol >>= fun _ => .ret r
  | .attachBPF bytecode => r.attachBPF bytecode >>= fun _ => .ret r
  | .receive len => r.receive len >>= fun _ => .ret r
  | .send ifIndex hwAddr protocol buf => r.send ifIndex hwAddr protocol buf >>= fun _ => .ret r

/-- **Calls one after another** on a socket. -/
def session (r : Raw) : List Method → Prog calls Raw
  | [] => .ret r
  | m :: ms => m.run r >>= fun r => session r ms

/-- Every method keeps to the descriptors of its socket. -/
theorem wp_method {r : Raw} {own : Set ℕ} (h : r.Holds own) (m : Method) :
    (m.run r).wp (fun r' own' => r'.Holds own') own := by
  -- the methods that leave the socket as it is
  have hsame : ∀ {α : Type} (p : Prog calls α), p.wp (fun _ own' => own' = own) own →
      (p >>= fun _ => .ret r).wp (fun r' own' => r'.Holds own') own := by
    intro α p hp
    refine Prog.wp_bind (Prog.wp_mono hp ?_)
    rintro a own' rfl
    exact h
  cases m with
  | create protocol =>
    exact Prog.wp_bind (Prog.wp_mono (wp_create h protocol) fun x own' hx => hx.1)
  | close => exact Prog.wp_bind (Prog.wp_mono (wp_close h) fun x own' hx => hx.1)
  | setReadDeadline => exact h
  | bind ifIndex hwAddr protocol => exact hsame _ (wp_bindAddr h ifIndex hwAddr protocol)
  | attachBPF bytecode => exact hsame _ (wp_attachBPF h bytecode)
  | receive len => exact hsame _ (wp_receive h len)
  | send ifIndex hwAddr protocol buf => exact hsame _ (wp_send h ifIndex hwAddr protocol buf)

/-- **And so does any sequence of calls.** -/
theorem wp_session {r : Raw} {own : Set ℕ} (h : r.Holds own) (ms : List Method) :
    (session r ms).wp (fun r' own' => r'.Holds own') own := by
  induction ms generalizing r own with
  | nil => exact h
  | cons m ms ih => exact Prog.wp_bind (Prog.wp_mono (wp_method h m) fun r' own' h' => ih h')

end Sockets

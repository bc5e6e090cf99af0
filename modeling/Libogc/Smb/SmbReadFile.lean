import Libogc.Lib.Bytes
import Mathlib.Data.List.Basic
/-!
# SmbReadFile — reading from the server

`SMB_ReadFile` asks for what is missing, a message at a time, and copies to the buffer what the reply says is data.  Offset and length of it
are two numbers in the reply, and the message buffer keeps what no reply has overwritten.

Of a request what it asks for is kept.  `smb_send` and `smb_recv` are their results: what a send returns, and the messages that come in.
Sizes are of buffers that exist: the size returned is the size asked for.
-/
namespace Libogc

open Bytes

def SMB_HEADER_SIZE : Nat := 32
def SMB_MAX_TRANSMIT_SIZE : Nat := 65472
def SMB_PROTO : Nat := 0x424d53ff
def SMB_READ_ANDX : UInt8 := 0x2e

/-- How long `smb` of `NBTSMB` is. -/
def smbMessageSize : Nat := SMB_MAX_TRANSMIT_SIZE + 128

def getUShort (buffer : Nat → UInt8) (offset : Nat) : Nat := be16 (buffer (offset + 1)) (buffer offset)

def getUInt (buffer : Nat → UInt8) (offset : Nat) : Nat := getUShort buffer (offset + 2) * 65536 + getUShort buffer offset

/-- What comes in while `SMBCheck` waits: messages that are none of the session, and then one of it, which may not be whole. -/
structure SmbReply where
  skipped : List (List UInt8)
  body : List UInt8
  whole : Bool

/-- The message buffer behind it. -/
def SmbReply.ptr (r : SmbReply) : Nat → UInt8 := write (r.skipped.foldl (fun smb body => write smb 0 body) fun _ => 0xff) 0 r.body

/-- The places of it that are written. -/
def SmbReply.received (r : SmbReply) : List Nat := (r.skipped ++ [r.body]).flatMap fun body => places 0 body.length

inductive SmbChecked where
  | success
  | badProtocol
  | badCommand
  | error
  deriving DecidableEq, Repr

/-- `SMBCheck` -/
def smbCheck (command : UInt8) (r : SmbReply) : SmbChecked :=
  if !r.whole then .error
  else if getUInt r.ptr 0 ≠ SMB_PROTO then .badProtocol
  else if r.ptr 4 ≠ command then .badCommand
  else if getUInt r.ptr 5 ≠ 0 then .error
  else .success

/-- The data length of a reply, and the offset to the data. -/
def SmbReply.length (r : SmbReply) : Nat := getUShort r.ptr (SMB_HEADER_SIZE + 11)
def SmbReply.ofs (r : SmbReply) : Nat := getUShort r.ptr (SMB_HEADER_SIZE + 13)

/-- A call: its buffer, what it has asked for, and the places it has written in the buffer, read in the message and written there. -/
structure SmbReadCall where
  buffer : Nat → UInt8
  requests : List (Nat × Nat)
  written : List Nat
  fetched : List Nat
  received : List Nat

section Calls
variable (send : Nat → Int) (reply : Nat → SmbReply) (offset size : Nat)

/-- The loop of `SMB_ReadFile`; `fuel` bounds its rounds.  It ends well or it fails. -/
def smbReadFileLoop : Nat → Nat → Nat → SmbReadCall → SmbReadCall × Bool
  | 0, _, _, call => (call, true)
  | fuel + 1, k, totalread, call =>
    if size ≤ totalread then (call, true)
    else
      let nextread := min (size - totalread) SMB_MAX_TRANSMIT_SIZE
      let call := { call with requests := call.requests ++ [(offset + totalread, nextread)] }
      -- the result of the send is kept in an unsigned variable
      let ret := UInt32.ofInt (send k)
      if ret < 0 then (call, false)
      else
        let call := { call with received := call.received ++ (reply k).received }
        if smbCheck SMB_READ_ANDX (reply k) ≠ .success then (call, false)
        else
          let length := (reply k).length
          if length = 0 then (call, true)
          else
            let ofs := (reply k).ofs
            smbReadFileLoop fuel (k + 1) (totalread + length)
              { call with
                buffer := write call.buffer totalread (read (reply k).ptr ofs length)
                written := call.written ++ places totalread length
                fetched := call.fetched ++ places ofs length }

/-- `SMB_ReadFile`: what it returns, or nothing for an error. -/
def smbReadFile (opened : Bool) (buffer : Nat → UInt8) : SmbReadCall × Option Nat :=
  if !opened ∨ size = 0 then (⟨buffer, [], [], [], []⟩, none)
  else
    match smbReadFileLoop send reply offset size size 0 0 ⟨buffer, [], [], [], []⟩ with
    | (call, true) => (call, some size)
    | (call, false) => (call, none)

end Calls

/-! ## When it is right -/

/-- The data of a reply, as far as it was received. -/
def SmbReply.data (r : SmbReply) : List UInt8 := (r.body.drop r.ofs).take r.length

/-- What the replies to the requests have brought. -/
def smbReceived (reply : Nat → SmbReply) (n : Nat) : List UInt8 := (List.range n).flatMap fun k => (reply k).data

/-- **A right read**: the size is returned only when as many bytes have come and stand in the buffer in their order, an error whenever a send
or a reply has failed, and no place outside the buffers is touched. -/
structure SmbReadRight (send : Nat → Int) (reply : Nat → SmbReply) (size : Nat) (result : SmbReadCall × Option Nat) : Prop where
  whole : result.2 = some size → size ≤ (smbReceived reply result.1.requests.length).length ∧
    read result.1.buffer 0 size = (smbReceived reply result.1.requests.length).take size
  failed : (∃ k < result.1.requests.length, send k < 0 ∨ smbCheck SMB_READ_ANDX (reply k) ≠ .success) → result.2 = none
  written : Within result.1.written size
  fetched : Within result.1.fetched smbMessageSize
  received : Within result.1.received smbMessageSize

/-- A reply that the loop goes on after. -/
def SmbReply.GoesOn (r : SmbReply) : Prop := smbCheck SMB_READ_ANDX r = .success ∧ r.length ≠ 0

def smbTotalread (reply : Nat → SmbReply) : Nat → Nat
  | 0 => 0
  | k + 1 => smbTotalread reply k + (reply k).length

/-- The request `k` is made. -/
def SmbRequested (reply : Nat → SmbReply) (size k : Nat) : Prop := smbTotalread reply k < size ∧ ∀ j < k, (reply j).GoesOn

/-- The reply to it stays in the buffers. -/
def SmbFits (reply : Nat → SmbReply) (size k : Nat) : Prop :=
  (∀ body ∈ (reply k).skipped ++ [(reply k).body], body.length ≤ smbMessageSize) ∧
    ((reply k).GoesOn → smbTotalread reply k + (reply k).length ≤ size ∧ (reply k).ofs + (reply k).length ≤ smbMessageSize)

/-- The request was sent, and the reply has data that were received. -/
def SmbWhole (send : Nat → Int) (reply : Nat → SmbReply) (k : Nat) : Prop :=
  0 ≤ send k ∧ (reply k).length ≠ 0 ∧ (reply k).ofs + (reply k).length ≤ (reply k).body.length

/-- **A server that can be trusted**: every reply stays in the buffers, and one fails or all are whole. -/
def SmbTrusted (send : Nat → Int) (reply : Nat → SmbReply) (size : Nat) : Prop :=
  (∀ k, SmbRequested reply size k → SmbFits reply size k) ∧
    ((∃ k, SmbRequested reply size k ∧ smbCheck SMB_READ_ANDX (reply k) ≠ .success) ∨
      ∀ k, SmbRequested reply size k → SmbWhole send reply k)

/-! ## The rounds -/

section Rounds
variable {send : Nat → Int} {reply : Nat → SmbReply} {offset size k : Nat} {call : SmbReadCall}

theorem smbTotalread_mono {j k : Nat} (h : j ≤ k) : smbTotalread reply j ≤ smbTotalread reply k := by
  induction h with
  | refl => exact Nat.le_refl _
  | step _ ih => exact Nat.le_trans ih (Nat.le_add_right ..)

theorem data_length (r : SmbReply) : r.data.length ≤ r.length := by
  unfold SmbReply.data
  rw [List.length_take]
  exact Nat.min_le_left ..

theorem smbReceived_succ (k : Nat) : smbReceived reply (k + 1) = smbReceived reply k ++ (reply k).data := by
  unfold smbReceived
  rw [List.range_succ, List.flatMap_append, List.flatMap_singleton]

theorem smbReceived_length (k : Nat) : (smbReceived reply k).length ≤ smbTotalread reply k := by
  induction k with
  | zero => exact Nat.le_refl 0
  | succ k ih =>
    rw [smbReceived_succ, List.length_append, smbTotalread]
    exact Nat.add_le_add ih (data_length _)

theorem smbReceived_full (k : Nat) : smbTotalread reply k ≤ (smbReceived reply k).length ↔ ∀ j < k, (reply j).length ≤ (reply j).data.length := by
  induction k with
  | zero => simp [smbTotalread]
  | succ k ih =>
    have hrest : (smbReceived reply k).length ≤ smbTotalread reply k := smbReceived_length k
    have hlast := data_length (reply k)
    rw [smbReceived_succ, List.length_append, smbTotalread, Nat.forall_lt_succ_right, ← ih]
    omega

theorem data_full {r : SmbReply} (h : r.length ≠ 0) : r.length ≤ r.data.length ↔ r.ofs + r.length ≤ r.body.length := by
  unfold SmbReply.data
  rw [List.length_take, List.length_drop]
  omega

theorem data_copied {r : SmbReply} (h : r.ofs + r.length ≤ r.body.length) : read r.ptr r.ofs r.length = r.data := by
  have hbody : read r.ptr 0 r.body.length = r.body := read_write _ 0 r.body
  have hsplit : r.body.length = r.ofs + (r.length + (r.body.length - (r.ofs + r.length))) := by omega
  unfold SmbReply.data
  conv_rhs => rw [← hbody, hsplit, read_add, read_add, Nat.zero_add]
  rw [List.drop_append_of_le_length (by simp), List.drop_of_length_le (by simp), List.nil_append,
    List.take_append_of_le_length (by simp), List.take_of_length_le (by simp)]

/-- The call after `k` replies that it went on after. -/
structure SmbReadAt (reply : Nat → SmbReply) (size k : Nat) (call : SmbReadCall) : Prop where
  goes : ∀ j < k, (reply j).GoesOn ∧ smbTotalread reply j < size
  requests : call.requests.length = k
  buffer : read call.buffer 0 (smbTotalread reply k) = (List.range k).flatMap fun j => read (reply j).ptr (reply j).ofs (reply j).length
  written : call.written = (List.range k).flatMap fun j => places (smbTotalread reply j) (reply j).length
  fetched : call.fetched = (List.range k).flatMap fun j => places (reply j).ofs (reply j).length
  received : call.received = (List.range k).flatMap fun j => (reply j).received

/-- The end of a call: the size was reached, or a reply did not go on. -/
inductive SmbReadEnds (reply : Nat → SmbReply) (size : Nat) : SmbReadCall × Bool → Prop
  | reached {call : SmbReadCall} {m : Nat} (h : SmbReadAt reply size m call) (hsize : size ≤ smbTotalread reply m) :
      SmbReadEnds reply size (call, true)
  | stopped {call : SmbReadCall} {m : Nat} {request : Nat × Nat} (h : SmbReadAt reply size m call) (hsize : smbTotalread reply m < size)
      (hstop : ¬ (reply m).GoesOn) :
      SmbReadEnds reply size ({ call with requests := call.requests ++ [request], received := call.received ++ (reply m).received },
        decide (smbCheck SMB_READ_ANDX (reply m) = .success))

/-- **The loop** makes its rounds until the size is reached or a reply does not go on. -/
theorem smbReadFileLoop_spec (fuel : Nat) : ∀ {k : Nat} {call : SmbReadCall}, SmbReadAt reply size k call →
    size ≤ smbTotalread reply k + fuel → SmbReadEnds reply size (smbReadFileLoop send reply offset size fuel k (smbTotalread reply k) call) := by
  induction fuel with
  | zero => exact fun h hfuel => .reached h hfuel
  | succ fuel ih =>
    intro k call h hfuel
    rw [smbReadFileLoop]
    split
    · exact .reached h ‹_›
    · rename_i hsize
      have hsize := Nat.lt_of_not_le hsize
      dsimp only
      rw [if_neg UInt32.not_lt_zero]
      by_cases hcheck : smbCheck SMB_READ_ANDX (reply k) = .success
      · rw [if_neg (not_not_intro hcheck)]
        by_cases hlength : (reply k).length = 0
        · rw [if_pos hlength]
          rw [← decide_eq_true hcheck]
          exact .stopped h hsize fun hgo => hgo.2 hlength
        · rw [if_neg hlength]
          have hnext : smbTotalread reply (k + 1) = smbTotalread reply k + (reply k).length := rfl
          rw [← hnext]
          refine ih ⟨?_, ?_, ?_, ?_, ?_, ?_⟩ (by omega)
          · intro j hj
            rcases Nat.lt_succ_iff_lt_or_eq.1 hj with hlt | rfl
            · exact h.goes j hlt
            · exact ⟨⟨hcheck, hlength⟩, hsize⟩
          · rw [List.length_append, h.requests, List.length_singleton]
          · have happend := read_write_append call.buffer (smbTotalread reply k) (read (reply k).ptr (reply k).ofs (reply k).length)
            rw [read_length, h.buffer] at happend
            rw [hnext, happend, List.range_succ, List.flatMap_append, List.flatMap_singleton]
          · rw [h.written, List.range_succ, List.flatMap_append, List.flatMap_singleton]
          · rw [h.fetched, List.range_succ, List.flatMap_append, List.flatMap_singleton]
          · rw [h.received, List.range_succ, List.flatMap_append, List.flatMap_singleton]
      · rw [if_pos hcheck]
        rw [← decide_eq_false hcheck]
        exact .stopped h hsize fun hgo => hcheck hgo.1

/-! ## What a call has touched -/

theorem SmbReadAt.written_iff (h : SmbReadAt reply size k call) :
    Within call.written size ↔ ∀ j < k, smbTotalread reply j + (reply j).length ≤ size := by
  rw [h.written, within_flatMap]
  simp only [List.mem_range, within_places]
  exact forall₂_congr fun j hj => or_iff_right (h.goes j hj).1.2

theorem SmbReadAt.fetched_iff (h : SmbReadAt reply size k call) :
    Within call.fetched smbMessageSize ↔ ∀ j < k, (reply j).ofs + (reply j).length ≤ smbMessageSize := by
  rw [h.fetched, within_flatMap]
  simp only [List.mem_range, within_places]
  exact forall₂_congr fun j hj => or_iff_right (h.goes j hj).1.2

theorem received_within (r : SmbReply) (bound : Nat) : Within r.received bound ↔ ∀ body ∈ r.skipped ++ [r.body], body.length ≤ bound := by
  unfold SmbReply.received
  rw [within_flatMap]
  simp only [within_places, Nat.zero_add]
  exact forall₂_congr fun body _ => or_iff_right_of_imp fun hzero => hzero ▸ Nat.zero_le bound

/-- **What a call has touched** is in the buffers just when every reply stays there. -/
theorem SmbReadAt.fits_iff (h : SmbReadAt reply size k call) :
    (∀ j < k, SmbFits reply size j) ↔ Within call.written size ∧ Within call.fetched smbMessageSize ∧ Within call.received smbMessageSize := by
  rw [h.written_iff, h.fetched_iff, h.received, within_flatMap]
  simp only [List.mem_range, received_within]
  constructor
  · intro hfits
    exact ⟨fun j hj => ((hfits j hj).2 (h.goes j hj).1).1, fun j hj => ((hfits j hj).2 (h.goes j hj).1).2, fun j hj => (hfits j hj).1⟩
  · rintro ⟨hwritten, hfetched, hreceived⟩ j hj
    exact ⟨hreceived j hj, fun _ => ⟨hwritten j hj, hfetched j hj⟩⟩

theorem SmbReadAt.reached_iff (h : SmbReadAt reply size k call) (hsize : size ≤ smbTotalread reply k) (j : Nat) :
    SmbRequested reply size j ↔ j < k := by
  constructor
  · rintro ⟨hlt, -⟩
    by_contra hge
    exact absurd (Nat.le_trans hsize (smbTotalread_mono (Nat.le_of_not_lt hge))) (Nat.not_le.2 hlt)
  · exact fun hj => ⟨(h.goes j hj).2, fun i hi => (h.goes i (Nat.lt_trans hi hj)).1⟩

theorem SmbReadAt.stopped_iff (h : SmbReadAt reply size k call) (hsize : smbTotalread reply k < size) (hstop : ¬ (reply k).GoesOn) (j : Nat) :
    SmbRequested reply size j ↔ j < k + 1 := by
  constructor
  · rintro ⟨-, hgo⟩
    by_contra hge
    exact hstop (hgo k (by omega))
  · intro hj
    rcases Nat.lt_succ_iff_lt_or_eq.1 hj with hlt | rfl
    · exact ⟨(h.goes j hlt).2, fun i hi => (h.goes i (Nat.lt_trans hi hlt)).1⟩
    · exact ⟨hsize, fun i hi => (h.goes i hi).1⟩

theorem SmbReadAt.reached_right (h : SmbReadAt reply size k call) (hsize : size ≤ smbTotalread reply k) (hpos : size ≠ 0) :
    SmbReadRight send reply size (call, some size) ↔ SmbTrusted send reply size := by
  have hmade := h.reached_iff hsize
  have hfits := h.fits_iff
  unfold SmbTrusted
  simp only [hmade]
  constructor
  · intro hright
    have hall := hfits.2 ⟨hright.written, hright.fetched, hright.received⟩
    refine ⟨hall, .inr fun j hj => ?_⟩
    have hgo := (h.goes j hj).1
    refine ⟨?_, hgo.2, ?_⟩
    · by_contra hneg
      exact nomatch hright.failed ⟨j, h.requests.symm ▸ hj, .inl (Int.not_le.1 hneg)⟩
    · -- the replies do not go beyond the size, so that none of them may be short
      have htotal : smbTotalread reply k = size := by
        cases k with
        | zero => exact absurd (Nat.le_zero.1 hsize) hpos
        | succ k => exact Nat.le_antisymm (h.written_iff.1 hright.written k (Nat.lt_succ_self k)) hsize
      have hlen := (hright.whole rfl).1
      rw [h.requests, ← htotal, smbReceived_full] at hlen
      exact (data_full hgo.2).1 (hlen j hj)
  · rintro ⟨hall, hwhole⟩
    obtain ⟨hwritten, hfetched, hreceived⟩ := hfits.1 hall
    have hwhole : ∀ j < k, SmbWhole send reply j := by
      rcases hwhole with ⟨j, hj, hfail⟩ | hwhole
      · exact absurd (h.goes j hj).1.1 hfail
      · exact hwhole
    have htotal : smbTotalread reply k = size := by
      cases k with
      | zero => exact absurd (Nat.le_zero.1 hsize) hpos
      | succ k => exact Nat.le_antisymm (h.written_iff.1 hwritten k (Nat.lt_succ_self k)) hsize
    refine ⟨fun _ => ?_, ?_, hwritten, hfetched, hreceived⟩
    · have hfull : size ≤ (smbReceived reply k).length := by
        rw [← htotal, smbReceived_full]
        exact fun j hj => (data_full (h.goes j hj).1.2).2 (hwhole j hj).2.2
      have hbuffer := h.buffer
      rw [htotal] at hbuffer
      dsimp only
      rw [h.requests, List.take_of_length_le (htotal ▸ smbReceived_length k), hbuffer]
      exact ⟨hfull, List.flatMap_congr fun j hj => data_copied (hwhole j (List.mem_range.1 hj)).2.2⟩
    · rintro ⟨j, hj, hfail⟩
      have hj : j < k := h.requests ▸ hj
      rcases hfail with hneg | hcheck
      · exact absurd (hwhole j hj).1 (Int.not_le.2 hneg)
      · exact absurd (h.goes j hj).1.1 hcheck

variable {request : Nat × Nat}

theorem SmbReadAt.empty_wrong (h : SmbReadAt reply size k call) (hsize : smbTotalread reply k < size) (hempty : (reply k).length = 0)
    (received : List Nat) :
    ¬ SmbReadRight send reply size ({ call with requests := call.requests ++ [request], received := received }, some size) := by
  intro hright
  have hlen := (hright.whole rfl).1
  rw [List.length_append, h.requests, List.length_singleton] at hlen
  have hmax : (smbReceived reply (k + 1)).length ≤ smbTotalread reply (k + 1) := smbReceived_length (k + 1)
  rw [smbTotalread, hempty] at hmax
  omega

theorem SmbReadAt.failed_right (h : SmbReadAt reply size k call) (hsize : smbTotalread reply k < size)
    (hcheck : smbCheck SMB_READ_ANDX (reply k) ≠ .success) :
    SmbReadRight send reply size
      ({ call with requests := call.requests ++ [request], received := call.received ++ (reply k).received }, none) ↔
      SmbTrusted send reply size := by
  have hstop : ¬ (reply k).GoesOn := fun hgo => hcheck hgo.1
  have hmade := h.stopped_iff hsize hstop
  have hlast : SmbFits reply size k ↔ Within (reply k).received smbMessageSize := by
    rw [received_within]
    exact and_iff_left fun hgo => absurd hgo hstop
  unfold SmbTrusted
  simp only [hmade, Nat.forall_lt_succ_right, hlast, h.fits_iff]
  constructor
  · intro hright
    obtain ⟨hreceived, hmore⟩ := within_append.1 hright.received
    exact ⟨⟨⟨hright.written, hright.fetched, hreceived⟩, hmore⟩, .inl ⟨k, Nat.lt_succ_self k, hcheck⟩⟩
  · rintro ⟨⟨⟨hwritten, hfetched, hreceived⟩, hmore⟩, -⟩
    exact ⟨fun hsome => (nomatch hsome), fun _ => rfl, hwritten, hfetched, within_append.2 ⟨hreceived, hmore⟩⟩

end Rounds

/-- **`SMB_ReadFile` is right** just when the server can be trusted: the send that fails, the reply without data and the numbers in the
replies are not looked at. -/
theorem smb_read_file (send : Nat → Int) (reply : Nat → SmbReply) (offset size : Nat) (opened : Bool) (buffer : Nat → UInt8) :
    SmbReadRight send reply size (smbReadFile send reply offset size opened buffer) ↔ (opened = true → SmbTrusted send reply size) := by
  unfold smbReadFile
  by_cases hbegin : !opened ∨ size = 0
  · rw [if_pos hbegin]
    refine iff_of_true ⟨fun hsome => (nomatch hsome), fun _ => rfl, within_nil _, within_nil _, within_nil _⟩ fun hopened => ?_
    obtain rfl : size = 0 := hbegin.resolve_left fun hno => by simp [hopened] at hno
    exact ⟨fun k hk => absurd hk.1 (Nat.not_lt_zero _), .inr fun k hk => absurd hk.1 (Nat.not_lt_zero _)⟩
  · rw [if_neg hbegin]
    rw [not_or, Bool.not_eq_true', Bool.not_eq_false] at hbegin
    obtain ⟨hopened, hpos⟩ := hbegin
    rw [forall_prop_of_true hopened]
    have hstart : SmbReadAt reply size 0 ⟨buffer, [], [], [], []⟩ := ⟨fun _ h => absurd h (Nat.not_lt_zero _), rfl, rfl, rfl, rfl, rfl⟩
    have hends : SmbReadEnds reply size (smbReadFileLoop send reply offset size size 0 0 ⟨buffer, [], [], [], []⟩) :=
      smbReadFileLoop_spec size hstart (Nat.le_add_left ..)
    generalize smbReadFileLoop send reply offset size size 0 0 ⟨buffer, [], [], [], []⟩ = result at hends
    cases hends with
    | reached h hsize => exact h.reached_right hsize hpos
    | @stopped call m request h hsize hstop =>
      by_cases hcheck : smbCheck SMB_READ_ANDX (reply m) = .success
      · rw [decide_eq_true hcheck]
        have hempty : (reply m).length = 0 := by
          by_contra hlength
          exact hstop ⟨hcheck, hlength⟩
        refine iff_of_false (h.empty_wrong hsize hempty _) ?_
        rintro ⟨-, ⟨j, hj, hfail⟩ | hwhole⟩
        · rcases Nat.lt_succ_iff_lt_or_eq.1 ((h.stopped_iff hsize hstop j).1 hj) with hlt | rfl
          · exact hfail (h.goes j hlt).1.1
          · exact hfail hcheck
        · exact (hwhole m ((h.stopped_iff hsize hstop m).2 (Nat.lt_succ_self m))).2.1 hempty
      · rw [decide_eq_false hcheck]
        exact h.failed_right hsize hcheck

/-- A reply that says that there are no data. -/
def smbEmptyReply : SmbReply := ⟨[], [0xff, 0x53, 0x4d, 0x42, 0x2e] ++ List.replicate 44 0, true⟩

/-- Four bytes are asked for, and the reply is empty: four bytes have been read. -/
theorem smb_read_file_empty :
    ¬ SmbReadRight (fun _ => 55) (fun _ => smbEmptyReply) 4 (smbReadFile (fun _ => 55) (fun _ => smbEmptyReply) 0 4 true fun _ => 0) := by
  intro hright
  exact absurd (hright.whole (by decide)).1 (by decide)

end Libogc

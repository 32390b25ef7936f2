import Mathlib.Data.List.Nodup
import Mathlib.Data.List.Perm.Basic
import Mathlib.Data.List.Range
import FxLib.Lib.FreeList
import FxLib.Net.UDPHandShake

/-!
# Where the buffers of a window are

`Pool w owned`: every buffer of the window is either on the free list or one of `owned`, and only
once. `Sends` and `Receives` say of a window which packets it holds; sequence numbers are counted
from the first packet on and never wrap.
-/

open MachineInt

namespace SlidingWindow

def Pool (w : SlidingWindow) (owned : List Nat) : Prop :=
  ∃ frees, FreeList.Threaded w.link windowSize w.freeBufferId frees ∧
    (frees ++ owned).Perm (List.range windowSize)

variable {w w' : SlidingWindow} {owned owned' : List Nat} {b : Nat} {bytes : List UInt8}

theorem Pool.lt (h : Pool w owned) (hb : b ∈ owned) : b < windowSize := by
  obtain ⟨frees, -, hall⟩ := h
  exact List.mem_range.mp (hall.mem_iff.mp (List.mem_append_right frees hb))

theorem Pool.nodup (h : Pool w owned) : owned.Nodup := by
  obtain ⟨frees, -, hall⟩ := h
  exact (List.nodup_append.mp (hall.nodup_iff.mpr List.nodup_range)).2.1

theorem Pool.length_le (h : Pool w owned) : owned.length ≤ windowSize := by
  obtain ⟨frees, -, hall⟩ := h
  have hlen := hall.length_eq
  rw [List.length_append, List.length_range] at hlen
  omega

theorem Pool.head_le (h : Pool w owned) : w.freeBufferId ≤ windowSize := by
  obtain ⟨frees, hthread, -⟩ := h
  exact hthread.head_le

theorem Pool.congr (h : Pool w owned) (hbuffer : w'.ppBuffer = w.ppBuffer)
    (hhead : w'.freeBufferId = w.freeBufferId) : Pool w' owned := by
  obtain ⟨frees, hthread, hall⟩ := h
  have hlink : w'.link = w.link := by
    funext i
    rw [link, link, hbuffer]
  refine ⟨frees, ?_, hall⟩
  rw [hlink, hhead]
  exact hthread

theorem Pool.perm (h : Pool w owned) (hperm : owned.Perm owned') : Pool w owned' := by
  obtain ⟨frees, hthread, hall⟩ := h
  exact ⟨frees, hthread, (hperm.append_left frees).symm.trans hall⟩

/-- As long as not all buffers are owned, one is free. -/
theorem Pool.free_of_length (h : Pool w owned) (hlen : owned.length < windowSize) :
    w.freeBufferId < windowSize := by
  obtain ⟨frees, hthread, hall⟩ := h
  cases frees with
  | nil =>
    have hlen' := hall.length_eq
    rw [List.nil_append, List.length_range] at hlen'
    omega
  | cons i rest =>
    obtain ⟨hhead, hi, -⟩ := hthread
    rw [hhead]
    exact hi

theorem Pool.allocate (h : Pool w owned) (hlt : w.freeBufferId < windowSize) :
    Pool w.allocate.2 (w.freeBufferId :: owned) := by
  obtain ⟨frees, hthread, hall⟩ := h
  obtain ⟨rest, rfl, hrest⟩ := hthread.pop hlt
  exact ⟨rest, hrest, List.perm_middle.trans hall⟩

/-- The buffer that is taken off the list is not on it any more. -/
theorem Pool.lost (h : Pool w owned) (hlt : w.freeBufferId < windowSize) :
    ¬ Pool w.allocate.2 owned := by
  intro hpool
  obtain ⟨frees, hthread, hall⟩ := h.allocate hlt
  obtain ⟨frees', hthread', hall'⟩ := hpool
  obtain rfl := hthread.unique hthread'
  have hlen := hall.length_eq
  have hlen' := hall'.length_eq
  rw [List.length_append, List.length_cons] at hlen
  rw [List.length_append] at hlen'
  omega

theorem Pool.free (h : Pool w (b :: owned)) : Pool (w.free b) owned := by
  have hb := h.lt List.mem_cons_self
  have hhead := h.head_le
  obtain ⟨frees, hthread, hall⟩ := h
  have hfresh : b ∉ frees := by
    have hnodup := List.nodup_append.mp (hall.nodup_iff.mpr List.nodup_range)
    exact fun hfree => hnodup.2.2 b hfree b List.mem_cons_self rfl
  have hbyte : (UInt8.ofNat w.freeBufferId).toNat = w.freeBufferId := by
    rw [windowSize] at hhead
    simp
    omega
  have hlink : (w.free b).link = Function.update w.link b w.freeBufferId := by
    funext i
    by_cases hi : i = b
    · subst hi
      rw [Function.update_self, link, SlidingWindow.free]
      simp only [Function.update_self]
      exact hbyte
    · rw [Function.update_of_ne hi, link, SlidingWindow.free, link]
      simp only [Function.update_of_ne hi]
  refine ⟨b :: frees, ?_, List.perm_middle.symm.trans hall⟩
  rw [hlink]
  exact hthread.push hb hfresh

/-- Only what stands in a free buffer is a link. -/
theorem Pool.fill (h : Pool w owned) (hb : b ∈ owned) : Pool (w.fill b bytes) owned := by
  obtain ⟨frees, hthread, hall⟩ := h
  have hnodup := List.nodup_append.mp (hall.nodup_iff.mpr List.nodup_range)
  refine ⟨frees, hthread.congr fun i hi => ?_, hall⟩
  rw [link, SlidingWindow.fill, link]
  simp only [Function.update_of_ne (hnodup.2.2 i hi b hb)]

theorem pool_clearBuffer (w : SlidingWindow) : Pool w.clearBuffer [] := by
  refine ⟨List.range windowSize, ?_, by rw [List.append_nil]⟩
  rw [List.range_eq_range']
  refine FreeList.threaded_range' (fun i _ hi => ?_) (by simp [clearBuffer])
  have hbyte : (UInt8.ofNat (i + 1)).toNat = i + 1 := by
    rw [windowSize] at hi
    simp
    omega
  rw [link, clearBuffer]
  simp only [if_pos hi]
  exact hbyte

/-! ### What a packet in the window holds -/

/-- The slot of the packet `n` holds `xs` behind a header. -/
structure Stored (w : SlidingWindow) (n : Nat) (xs : List UInt8) : Prop where
  short : UDPPacketHeader.headSize + xs.length ≤ bufferSize
  size : w.seqSize (n % windowSize) = UDPPacketHeader.headSize + xs.length
  bytes : Memory.read (w.ppBuffer (w.seqBufferId (n % windowSize))) UDPPacketHeader.headSize
    xs.length = xs

variable {n : Nat} {xs : List UInt8}

theorem Stored.congr (h : Stored w n xs)
    (hsize : w'.seqSize (n % windowSize) = w.seqSize (n % windowSize))
    (hbuffer : ∀ k, Memory.read (w'.ppBuffer (w'.seqBufferId (n % windowSize)))
      UDPPacketHeader.headSize k = Memory.read (w.ppBuffer (w.seqBufferId (n % windowSize)))
        UDPPacketHeader.headSize k) : Stored w' n xs :=
  ⟨h.short, hsize.trans h.size, (hbuffer _).trans h.bytes⟩

/-- Behind the header of a buffer nothing changes when its header does. -/
theorem read_header (pBuffer : Nat → Mem) (b i : Nat) (header : List UInt8)
    (hlen : header.length ≤ UDPPacketHeader.headSize) (k : Nat) :
    Memory.read (Function.update pBuffer b (Memory.write (pBuffer b) 0 header) i)
      UDPPacketHeader.headSize k = Memory.read (pBuffer i) UDPPacketHeader.headSize k := by
  by_cases hi : i = b
  · subst hi
    rw [Function.update_self]
    exact Memory.read_write_disjoint _ _ (Or.inr (by omega))
  · rw [Function.update_of_ne hi]

theorem Stored.free (h : Stored w n xs) (b : Nat) : Stored (w.free b) n xs :=
  h.congr rfl fun k => read_header w.ppBuffer b _ [UInt8.ofNat w.freeBufferId]
    (by simp [UDPPacketHeader.headSize]) k

theorem Stored.fill_header (h : Stored w n xs) (b : Nat) (header : UDPPacketHeader) :
    Stored (w.fill b header.bytes) n xs :=
  h.congr rfl fun k => read_header w.ppBuffer b _ header.bytes le_rfl k

theorem Stored.fill (h : Stored w n xs) (hb : w.seqBufferId (n % windowSize) ≠ b) :
    Stored (w.fill b bytes) n xs := by
  refine h.congr rfl fun k => ?_
  simp only [SlidingWindow.fill, Function.update_of_ne hb]

/-! ### The send window -/

/-- The buffers of the packets from `first` to `last`. -/
def buffers (w : SlidingWindow) (first last : Nat) : List Nat :=
  (List.range' first (last - first)).map fun n => w.seqBufferId (n % windowSize)

/-- The window holds the packets from `first` to `last`, and `data` is what is in them. -/
structure Sends (w : SlidingWindow) (data : Nat → List UInt8) (first last : Nat) : Prop where
  begins : w.btBegin = first % 256
  ends : w.btEnd = last % 256
  le : first ≤ last
  pool : Pool w (w.buffers first last)
  stored : ∀ n, first ≤ n → n < last → Stored w n (data n)

variable {data : Nat → List UInt8} {first last : Nat}

theorem Sends.width (h : Sends w data first last) : last ≤ first + windowSize := by
  have hlen := h.pool.length_le
  rw [buffers, List.length_map, List.length_range'] at hlen
  omega

theorem Sends.count (h : Sends w data first last) : w.count = last - first := by
  have hwidth := h.width
  have hle := h.le
  rw [windowSize] at hwidth
  rw [SlidingWindow.count, span, h.begins, h.ends]
  omega

theorem Sends.mem (h : Sends w data first last) {n : Nat} (hge : first ≤ n) (hlt : n < last) :
    w.seqBufferId (n % windowSize) ∈ w.buffers first last := by
  have hle := h.le
  exact List.mem_map.mpr ⟨n, List.mem_range'_1.mpr ⟨hge, by omega⟩, rfl⟩

/-- How far the window moves when the packet `n` of it is acknowledged. -/
theorem Sends.span (h : Sends w data first last) {n : Nat} (hge : first ≤ n) (hlt : n < last) :
    span w.btBegin (succ (n % 256)) = n + 1 - first := by
  have hwidth := h.width
  rw [windowSize] at hwidth
  rw [SlidingWindow.span, succ, h.begins]
  omega

theorem Sends.release (h : Sends w data first last) (hlt : first < last) :
    Sends w.release data (first + 1) last := by
  have hbegins := h.begins
  have hmod : w.btBegin % windowSize = first % windowSize := by
    rw [hbegins, windowSize]
    omega
  have hsplit : w.buffers first last =
      w.seqBufferId (first % windowSize) :: w.buffers (first + 1) last := by
    rw [buffers, show last - first = last - (first + 1) + 1 by omega, List.range'_succ,
      List.map_cons]
    rfl
  have hpool := h.pool
  rw [hsplit] at hpool
  refine ⟨?_, h.ends, by omega, ?_, fun n hge hn => ?_⟩
  · show succ w.btBegin = _
    rw [succ, hbegins]
    omega
  · rw [SlidingWindow.release, hmod]
    exact hpool.free.congr rfl rfl
  · rw [SlidingWindow.release]
    exact ((h.stored n (by omega) hn).free _).congr rfl fun _ => rfl

theorem Sends.releases (h : Sends w data first last) {k : Nat} (hle : first + k ≤ last) :
    Sends (releases k w) data (first + k) last := by
  induction k generalizing w first with
  | zero => exact h
  | succ k ih =>
    have hnext := ih (h.release (by omega)) (by omega)
    rw [show first + 1 + k = first + (k + 1) by omega] at hnext
    exact hnext

/-- A packet takes the slot at the end of the window. -/
theorem Sends.place (h : Sends w data first last)
    (hshort : UDPPacketHeader.headSize + xs.length ≤ bufferSize)
    (hpool : Pool w' (w.freeBufferId :: w.buffers first last))
    (hkeeps : ∀ b ≠ w.freeBufferId, w'.ppBuffer b = w.ppBuffer b)
    (hid : w'.seqBufferId = Function.update w.seqBufferId (w.btEnd % windowSize) w.freeBufferId)
    (hsize : w'.seqSize = Function.update w.seqSize (w.btEnd % windowSize)
      (UDPPacketHeader.headSize + xs.length))
    (hbytes : Memory.read (w'.ppBuffer w.freeBufferId) UDPPacketHeader.headSize xs.length = xs)
    (hbegin : w'.btBegin = w.btBegin) (hend : w'.btEnd = succ w.btEnd) :
    Sends w' (Function.update data last xs) first (last + 1) := by
  have hle := h.le
  have hlast : w.btEnd % windowSize = last % windowSize := by
    rw [h.ends, windowSize]
    omega
  have hwidth := hpool.length_le
  rw [List.length_cons, buffers, List.length_map, List.length_range', windowSize] at hwidth
  have hother : ∀ n, first ≤ n → n < last →
      w'.seqBufferId (n % windowSize) = w.seqBufferId (n % windowSize) := by
    intro n hge hlt
    rw [hid, hlast, Function.update_of_ne (by rw [windowSize]; omega)]
  have hnew : w'.seqBufferId (last % windowSize) = w.freeBufferId := by
    rw [hid, hlast, Function.update_self]
  have hsame : w'.buffers first last = w.buffers first last := by
    refine List.map_congr_left fun n hn => ?_
    obtain ⟨hge, hlt⟩ := List.mem_range'_1.mp hn
    exact hother n hge (by omega)
  have hsplit : w'.buffers first (last + 1) = w.buffers first last ++ [w.freeBufferId] := by
    rw [← hsame, buffers, show last + 1 - first = last - first + 1 by omega, List.range'_concat,
      List.map_append, List.map_singleton, one_mul, Nat.add_sub_cancel' hle, hnew]
    rfl
  refine ⟨hbegin.trans h.begins, ?_, by omega, ?_, fun n hge hlt => ?_⟩
  · rw [hend, succ, h.ends]
    omega
  · rw [hsplit]
    exact hpool.perm (List.perm_append_singleton _ _).symm
  · rcases Nat.lt_succ_iff_lt_or_eq.mp hlt with hlt | rfl
    · rw [Function.update_of_ne hlt.ne]
      refine (h.stored n hge hlt).congr ?_ fun k => ?_
      · rw [hsize, hlast, Function.update_of_ne (by rw [windowSize]; omega)]
      · rw [hother n hge hlt, hkeeps]
        exact ne_of_mem_of_not_mem (h.mem hge hlt) (List.nodup_cons.mp hpool.nodup).1
    · rw [Function.update_self]
      refine ⟨hshort, ?_, ?_⟩
      · rw [hsize, hlast, Function.update_self]
      · rw [hnew]
        exact hbytes

theorem Sends.congr (h : Sends w data first last) (hbuffer : w'.ppBuffer = w.ppBuffer)
    (hhead : w'.freeBufferId = w.freeBufferId) (hid : w'.seqBufferId = w.seqBufferId)
    (hsize : w'.seqSize = w.seqSize) (hbegin : w'.btBegin = w.btBegin)
    (hend : w'.btEnd = w.btEnd) : Sends w' data first last := by
  refine ⟨hbegin.trans h.begins, hend.trans h.ends, h.le, ?_, fun n hge hlt => ?_⟩
  · rw [buffers, hid]
    exact h.pool.congr hbuffer hhead
  · exact (h.stored n hge hlt).congr (by rw [hsize]) fun k => by rw [hid, hbuffer]

/-- A packet of the window gets a new header. -/
theorem Sends.fill_header (h : Sends w data first last) {n : Nat} (hge : first ≤ n) (hlt : n < last)
    (header : UDPPacketHeader) :
    Sends (w.fill (w.seqBufferId (n % windowSize)) header.bytes) data first last :=
  ⟨h.begins, h.ends, h.le, h.pool.fill (h.mem hge hlt),
    fun k hk hk' => (h.stored k hk hk').fill_header _ header⟩

/-- And stands in its buffer behind it. -/
theorem Sends.packet (h : Sends w data first last) {n : Nat} (hge : first ≤ n) (hlt : n < last)
    (header : UDPPacketHeader) :
    Memory.read ((w.fill (w.seqBufferId (n % windowSize)) header.bytes).ppBuffer
      (w.seqBufferId (n % windowSize))) 0 (w.seqSize (n % windowSize)) =
        header.bytes ++ data n := by
  have hstored := (h.stored n hge hlt).fill_header (w.seqBufferId (n % windowSize)) header
  rw [(h.stored n hge hlt).size, Memory.read_add]
  congr 1
  · rw [SlidingWindow.fill]
    simp only [Function.update_self]
    exact Memory.read_write_same _ 0 header.bytes
  · exact hstored.bytes

/-! ### The receive window -/

/-- The buffers that stand in slots. -/
def slots (w : SlidingWindow) : List Nat :=
  ((List.range windowSize).map w.seqBufferId).filter (· < windowSize)

/-- What one slot adds to them. -/
theorem slots_update (w : SlidingWindow) {id : Nat} (hid : id < windowSize) :
    ∃ rest, ∀ (w' : SlidingWindow) b, w'.seqBufferId = Function.update w.seqBufferId id b →
      w'.slots.Perm (if b < windowSize then b :: rest else rest) := by
  obtain ⟨before, behind, hsplit⟩ := List.append_of_mem (List.mem_range.mpr hid)
  have hnodup : (before ++ id :: behind).Nodup := hsplit ▸ List.nodup_range
  have hfresh := (List.nodup_cons.mp (List.nodup_middle.mp hnodup)).1
  rw [List.mem_append, not_or] at hfresh
  obtain ⟨hbefore, hbehind⟩ := hfresh
  refine ⟨((before ++ behind).map w.seqBufferId).filter (· < windowSize), fun w' b hw' => ?_⟩
  have hkeep : ∀ l : List Nat, id ∉ l → l.map w'.seqBufferId = l.map w.seqBufferId := fun l hl =>
    List.map_congr_left fun i hi => by
      rw [hw', Function.update_of_ne (ne_of_mem_of_not_mem hi hl)]
  rw [slots, hsplit, List.map_append, List.map_cons, hkeep before hbefore, hkeep behind hbehind,
    hw', Function.update_self, List.map_append, List.filter_append, List.filter_cons,
    List.filter_append]
  by_cases hb : b < windowSize
  · rw [if_pos (decide_eq_true hb), if_pos hb]
    exact List.perm_middle
  · rw [if_neg (by simpa using hb), if_neg hb]

/-- The window begins with the packet `next`; of the packets before `last` some stand in their
slots, and `data` is what is in them. The buffers `hand` are in no slot. -/
structure Receives (w : SlidingWindow) (data : Nat → List UInt8) (next last : Nat)
    (hand : List Nat) : Prop where
  begins : w.btBegin = next % 256
  ends : w.btEnd = (next + windowSize) % 256
  pool : Pool w (hand ++ w.slots)
  stored : ∀ n, next ≤ n → n < next + windowSize → w.seqBufferId (n % windowSize) < windowSize →
    n < last ∧ Stored w n (data n)

variable {next : Nat} {hand : List Nat}

theorem Receives.count (h : Receives w data next last hand) : w.count = windowSize := by
  rw [SlidingWindow.count, SlidingWindow.span, h.begins, h.ends, windowSize]
  omega

/-- While a slot is empty, a buffer is free. -/
theorem Receives.free_of_empty (h : Receives w data next last []) {id : Nat} (hid : id < windowSize)
    (hempty : windowSize ≤ w.seqBufferId id) : w.freeBufferId < windowSize := by
  refine h.pool.free_of_length ?_
  rw [List.nil_append, slots]
  have hlt : (((List.range windowSize).map w.seqBufferId).filter (· < windowSize)).length <
      ((List.range windowSize).map w.seqBufferId).length := by
    refine List.length_filter_lt_length_iff_exists.mpr ⟨w.seqBufferId id, ?_, by simpa using hempty⟩
    exact List.mem_map.mpr ⟨id, List.mem_range.mpr hid, rfl⟩
  simpa using hlt

/-- Nothing is known of what will come to the empty slots. -/
theorem Receives.relabel {data' : Nat → List UInt8} (h : Receives w data next last hand)
    (hsame : ∀ n, w.seqBufferId (n % windowSize) < windowSize → data' n = data n) :
    Receives w data' next (next + windowSize) hand := by
  refine ⟨h.begins, h.ends, h.pool, fun n hge hlt hid => ⟨hlt, ?_⟩⟩
  rw [hsame n hid]
  exact (h.stored n hge hlt hid).2

theorem Receives.allocate (h : Receives w data next last []) (hlt : w.freeBufferId < windowSize) :
    Receives w.allocate.2 data next last [w.freeBufferId] :=
  ⟨h.begins, h.ends, h.pool.allocate hlt,
    fun n hge hn hid => (h.stored n hge hn hid).imp_right fun hs => hs.congr rfl fun _ => rfl⟩

/-- A buffer that is in no slot is written. -/
theorem Receives.fill (h : Receives w data next last [b]) :
    Receives (w.fill b bytes) data next last [b] := by
  refine ⟨h.begins, h.ends, h.pool.fill List.mem_cons_self, fun n hge hlt hid => ?_⟩
  obtain ⟨hlast, hstored⟩ := h.stored n hge hlt hid
  refine ⟨hlast, hstored.fill ?_⟩
  have hslot : w.seqBufferId (n % windowSize) ∈ w.slots :=
    List.mem_filter.mpr ⟨List.mem_map.mpr ⟨n % windowSize, List.mem_range.mpr
      (Nat.mod_lt n (by decide)), rfl⟩, decide_eq_true hid⟩
  exact ne_of_mem_of_not_mem hslot (List.nodup_cons.mp h.pool.nodup).1

theorem Receives.free (h : Receives w data next last [b]) : Receives (w.free b) data next last [] :=
  ⟨h.begins, h.ends, h.pool.free, fun n hge hlt hid =>
    (h.stored n hge hlt hid).imp_right fun hs => hs.free b⟩

/-- The buffer goes to an empty slot. -/
theorem Receives.attach (h : Receives w data next last [b]) {n : Nat} (hge : next ≤ n)
    (hlt : n < next + windowSize) (hempty : windowSize ≤ w.seqBufferId (n % windowSize))
    (hlast : n < last) (hdata : data n = xs)
    (hshort : UDPPacketHeader.headSize + xs.length ≤ bufferSize)
    (hbytes : Memory.read (w.ppBuffer b) UDPPacketHeader.headSize xs.length = xs) :
    Receives { w with
      seqBufferId := Function.update w.seqBufferId (n % windowSize) b
      seqSize := Function.update w.seqSize (n % windowSize) (UDPPacketHeader.headSize + xs.length) }
      data next last [] := by
  obtain ⟨rest, hslots⟩ := slots_update w (Nat.mod_lt n (show 0 < windowSize by decide))
  have hold := hslots w _ (Function.update_eq_self _ _).symm
  have hnew := hslots { w with
    seqBufferId := Function.update w.seqBufferId (n % windowSize) b
    seqSize := Function.update w.seqSize (n % windowSize)
      (UDPPacketHeader.headSize + xs.length) } b rfl
  rw [if_neg (by omega)] at hold
  rw [if_pos (h.pool.lt List.mem_cons_self)] at hnew
  refine ⟨h.begins, h.ends, ?_, fun k hk hk' hid => ?_⟩
  · exact (h.pool.congr rfl rfl).perm ((hold.cons b).trans hnew.symm)
  · by_cases hkn : k = n
    · subst hkn
      rw [hdata]
      refine ⟨hlast, hshort, ?_, ?_⟩
      · simp only [Function.update_self]
      · simp only [Function.update_self]
        exact hbytes
    · have hne : k % windowSize ≠ n % windowSize := by
        rw [windowSize] at *
        omega
      simp only [Function.update_of_ne hne] at hid
      obtain ⟨hklast, hstored⟩ := h.stored k hk hk' hid
      refine ⟨hklast, hstored.congr ?_ fun i => ?_⟩
      · simp only [Function.update_of_ne hne]
      · simp only [Function.update_of_ne hne]

/-- The next packet is taken out of the window. -/
theorem Receives.shift (h : Receives w data next last [])
    (hfull : w.seqBufferId (next % windowSize) < windowSize) :
    Receives (FxUDPConnectSock.shift w) data (next + 1) last [] := by
  have hbegins := h.begins
  have hmod : w.btBegin % windowSize = next % windowSize := by
    rw [hbegins, windowSize]
    omega
  obtain ⟨rest, hslots⟩ := slots_update w (Nat.mod_lt next (show 0 < windowSize by decide))
  have hold := hslots w _ (Function.update_eq_self _ _).symm
  have hid : (FxUDPConnectSock.shift w).seqBufferId =
      Function.update w.seqBufferId (next % windowSize) windowSize := by
    rw [FxUDPConnectSock.shift, hmod]
    rfl
  have hnew := hslots (FxUDPConnectSock.shift w) windowSize hid
  rw [if_pos hfull] at hold
  rw [if_neg (by omega)] at hnew
  refine ⟨?_, ?_, ?_, fun n hge hlt hslot => ?_⟩
  · show succ w.btBegin = _
    rw [succ, hbegins]
    omega
  · show succ w.btEnd = _
    rw [succ, h.ends]
    omega
  · rw [List.nil_append]
    refine Pool.perm ?_ hnew.symm
    rw [FxUDPConnectSock.shift, hmod]
    exact (h.pool.perm hold).free.congr rfl rfl
  · have hne : n % windowSize ≠ next % windowSize := by
      intro hsame
      rw [hid, hsame, Function.update_self] at hslot
      omega
    rw [hid, Function.update_of_ne hne] at hslot
    have hn : n < next + windowSize := by
      rw [windowSize] at *
      omega
    obtain ⟨hlast, hstored⟩ := h.stored n (by omega) hn hslot
    refine ⟨hlast, (hstored.free (w.seqBufferId (next % windowSize))).congr ?_ fun k => ?_⟩
    · rw [FxUDPConnectSock.shift, hmod]
      simp only [Function.update_of_ne hne]
    · rw [hid, Function.update_of_ne hne, FxUDPConnectSock.shift, hmod]
      rfl

end SlidingWindow

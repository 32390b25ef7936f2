import FxLib.Lib.MachineInt
import FxLib.Lib.Memory

/-!
# FxLoopBuff

The ring buffer of `Net/loopbuff.cpp`: three cursors, two wrap flags and a free
count over one block of memory. Every sum is a 32-bit `int` sum, as in the
source. A pointer into the block is its offset; `none` is `NULL`.
-/

open MachineInt

/-- A block of bytes, addressed from its first cell. -/
abbrev Mem := Int → UInt8

structure FxLoopBuff where
  totalLen : Int
  freeLen : Int
  inCursor : Int
  outCursor : Int
  useCursor : Int
  buff : Option Mem
  loop : Bool
  useLoop : Bool

/-- What the cursor accessors return: a pointer and a contiguous length. -/
structure Region where
  ptr : Option Int
  len : Int
  deriving DecidableEq

namespace FxLoopBuff

/-- The constructor. -/
def new : FxLoopBuff := ⟨0, 0, 0, 0, 0, none, false, false⟩

/-- The bytes behind `m_pszBuff`. -/
def mem (s : FxLoopBuff) : Mem := s.buff.getD fun _ => 0

/-- `realloc` is what the allocator answers, `none` for `NULL`. -/
def init (s : FxLoopBuff) (nLen : Int) (realloc : Option Mem) : Bool × FxLoopBuff :=
  match if nLen ≠ s.totalLen then realloc else s.buff with
  | none => (false, s)
  | some block => (true, ⟨nLen, nLen, 0, 0, 0, some block, false, false⟩)

def getTotalLen (s : FxLoopBuff) : Int := s.totalLen

def getFreeLen (s : FxLoopBuff) : Int := s.freeLen

def getUseLen (s : FxLoopBuff) : Int :=
  if s.freeLen = s.totalLen then 0
  else if s.useLoop then sub32 (add32 s.totalLen s.inCursor) s.useCursor
  else sub32 s.inCursor s.useCursor

def getInCursorPtr (s : FxLoopBuff) : Region :=
  if 0 = s.freeLen then ⟨none, 0⟩
  else if s.loop then ⟨some s.inCursor, sub32 s.outCursor s.inCursor⟩
  else ⟨some s.inCursor, sub32 s.totalLen s.inCursor⟩

def getOutCursorPtr (s : FxLoopBuff) : Region :=
  if s.totalLen = s.freeLen then ⟨none, 0⟩
  else if s.loop then ⟨some s.outCursor, sub32 s.totalLen s.outCursor⟩
  else ⟨some s.outCursor, sub32 s.inCursor s.outCursor⟩

def getUsedCursorPtr (s : FxLoopBuff) : Region :=
  if s.totalLen = s.freeLen then ⟨none, 0⟩
  else if s.useLoop then ⟨some s.useCursor, sub32 s.totalLen s.useCursor⟩
  else ⟨some s.useCursor, sub32 s.inCursor s.useCursor⟩

/-- `__GetInCursorPtr`: it folds a cursor standing at the end back to the head. -/
def inCursorPtr (s : FxLoopBuff) : Option Int × FxLoopBuff :=
  if 0 = s.freeLen then (none, s)
  else if s.inCursor = s.totalLen then (some 0, { s with inCursor := 0 })
  else (some s.inCursor, s)

/-- `__GetOutCursorPtr`. -/
def outCursorPtr (s : FxLoopBuff) : Option Int × FxLoopBuff :=
  if s.totalLen = s.freeLen then (none, s)
  else if s.outCursor = s.totalLen then (some 0, { s with outCursor := 0 })
  else (some s.outCursor, s)

/-- `memcpy` into the block. -/
def copyIn (s : FxLoopBuff) (dst : Option Int) (src : List UInt8) : FxLoopBuff :=
  match dst with
  | none => s
  | some p => { s with buff := s.buff.map fun m => Memory.write m p src }

/-- `memcpy` out of the block. -/
def copyOut (s : FxLoopBuff) (src : Option Int) (n : Int) : List UInt8 :=
  match src with
  | none => []
  | some p => Memory.read s.mem p n.toNat

def pushBuff (s : FxLoopBuff) (pInBuff : List UInt8) (nLen : Int) : Bool × FxLoopBuff :=
  if 0 ≥ nLen then (false, s)
  else if nLen > s.freeLen then (false, s)
  else
    let s' :=
      if add32 nLen s.inCursor = s.totalLen then
        let (p, s) := s.inCursorPtr
        let s := s.copyIn p (pInBuff.take nLen.toNat)
        { s with inCursor := 0, loop := true, useLoop := true }
      else if add32 nLen s.inCursor < s.totalLen then
        let (p, s) := s.inCursorPtr
        let s := s.copyIn p (pInBuff.take nLen.toNat)
        { s with inCursor := add32 s.inCursor nLen }
      else
        let nBuff0 := sub32 s.totalLen s.inCursor
        let (p, s) := s.inCursorPtr
        let s := s.copyIn p (pInBuff.take nBuff0.toNat)
        let nBuff1 := sub32 nLen nBuff0
        let s := s.copyIn (some 0) ((pInBuff.drop nBuff0.toNat).take nBuff1.toNat)
        { s with inCursor := nBuff1, loop := true, useLoop := true }
    (true, { s' with freeLen := sub32 s'.freeLen nLen })

/-- The bytes are those copied to `pOutBuff`. -/
def popBuff (s : FxLoopBuff) (nLen : Int) : Bool × List UInt8 × FxLoopBuff :=
  if 0 ≥ nLen then (false, [], s)
  else if add32 nLen s.freeLen > s.totalLen then (false, [], s)
  else
    let (bytes, s') :=
      if add32 nLen s.outCursor = s.totalLen then
        let (p, s) := s.outCursorPtr
        (s.copyOut p nLen, { s with outCursor := 0, loop := false })
      else if add32 nLen s.outCursor < s.totalLen then
        let (p, s) := s.outCursorPtr
        (s.copyOut p nLen, { s with outCursor := add32 s.outCursor nLen })
      else
        let nBuff0 := sub32 s.totalLen s.outCursor
        let (p, s) := s.outCursorPtr
        let nBuff1 := sub32 nLen nBuff0
        (s.copyOut p nBuff0 ++ s.copyOut (some 0) nBuff1,
          { s with outCursor := nBuff1, loop := false })
    (true, bytes, { s' with freeLen := add32 s'.freeLen nLen })

def discardBuff (s : FxLoopBuff) (nLen : Int) : Bool × FxLoopBuff :=
  if 0 ≥ nLen then (false, s)
  else if add32 nLen s.freeLen > s.totalLen then (false, s)
  else
    let s' :=
      if add32 nLen s.outCursor < s.totalLen then
        { s with outCursor := add32 s.outCursor nLen }
      else
        { s with outCursor := sub32 (add32 nLen s.outCursor) s.totalLen, loop := false }
    (true, { s' with freeLen := add32 s'.freeLen nLen })

def costBuff (s : FxLoopBuff) (nLen : Int) : Bool × FxLoopBuff :=
  if 0 ≥ nLen then (false, s)
  else if nLen > s.freeLen then (false, s)
  else
    let s' :=
      if add32 nLen s.inCursor < s.totalLen then
        { s with inCursor := add32 s.inCursor nLen }
      else
        { s with inCursor := sub32 (add32 nLen s.inCursor) s.totalLen
                 loop := true, useLoop := true }
    (true, { s' with freeLen := sub32 s'.freeLen nLen })

def costUsedBuff (s : FxLoopBuff) (nLen : Int) : Bool × FxLoopBuff :=
  if 0 ≥ nLen then (false, s)
  else if add32 s.freeLen nLen > s.totalLen then (false, s)
  else if s.useLoop then
    if add32 nLen s.useCursor < s.totalLen then
      (true, { s with useCursor := add32 s.useCursor nLen })
    else
      let nUseCursor := sub32 (add32 s.useCursor nLen) s.totalLen
      if nUseCursor > s.inCursor then (false, s)
      else (true, { s with useCursor := nUseCursor, useLoop := false })
  else if add32 nLen s.useCursor > s.inCursor then (false, s)
  else (true, { s with useCursor := add32 s.useCursor nLen })

def isEmpty (s : FxLoopBuff) : Bool := s.totalLen = s.freeLen

def clear (s : FxLoopBuff) : FxLoopBuff :=
  { s with useCursor := 0, inCursor := 0, outCursor := 0, loop := false, useLoop := false }

end FxLoopBuff

import Mathlib.Tactic.Common

/-!
# Frames, reassembly buffers and handles of the CAN-to-serial library

The data model of `cantoserial/ctos.c`. Bit fields are bit vectors of their
declared width, so assigning to one truncates as it does in C, and `unsigned
char` counters are bytes, so they wrap.
-/

namespace BackupSoftware.Can

/-- The field `frame_mark:2`: CAN_FRAME_MARK_SINGLE (0), _HEAD (1), _MIDDLE (2), _TAIL (3). -/
inductive FrameMark where
  | single
  | head
  | middle
  | tail
  deriving DecidableEq, Repr

/-- A frame, `struct can_frame_metadata`: the 29-bit identifier, the three flags of the
socket layer and eight data bytes (CAN_FRAME_LEN_MAX). -/
structure CanFrameMetadata where
  dAddr : BitVec 7
  sAddr : BitVec 7
  frameMark : FrameMark
  frameSeq : BitVec 6
  random : BitVec 3
  rsv : BitVec 3
  priority : BitVec 1
  err : BitVec 1
  rtr : BitVec 1
  eff : BitVec 1
  canDlc : UInt8
  data : Vector UInt8 8
  deriving DecidableEq

/-- A stake's buffer, `struct stake_frame_buf`, with STAKE_FRAME_MAX (64) random slots and
STAKE_BUF_MAX (320) data bytes. -/
structure StakeFrameBuf where
  hasFrameHead : UInt8
  cnt : UInt8
  len : UInt8
  random : Vector UInt8 64
  data : Vector UInt8 320
  deriving DecidableEq

/-- The buffer after `memset(&frame_buf[stake_id], 0, sizeof(struct stake_frame_buf))`. -/
def StakeFrameBuf.zero : StakeFrameBuf where
  hasFrameHead := 0
  cnt := 0
  len := 0
  random := Vector.replicate 64 0
  data := Vector.replicate 320 0

/-- All stakes, `struct stake_frame`: error counters and one buffer per stake (STAKE_NUM_MAX, 128). -/
structure StakeFrame where
  errStatistics : UInt32
  errRandom : UInt32
  frameBuf : Vector StakeFrameBuf 128

/-- A stake frame whose buffers are all zero. -/
def StakeFrame.zero : StakeFrame := ⟨0, 0, Vector.replicate 128 StakeFrameBuf.zero⟩

/-- The fields of `struct ctos` that sending and reassembly use. `packPtr` is
`none` for NULL; `ringbuffer` says whether that pointer is set. -/
structure LibCtos where
  canId : UInt8
  sn : UInt8
  packPtr : Option StakeFrame
  ringbuffer : Bool

/-- A handle as `lib_ctos_create` returns it: both buffers are allocated and the
stake buffers hold whatever `malloc` left in them. -/
def LibCtos.created (canId sn : UInt8) (frame : StakeFrame) : LibCtos :=
  ⟨canId, sn, some frame, true⟩

def idleHandle (canId : UInt8) : LibCtos := .created canId 0 .zero

def libCtosEok : Int := 0
def libCtosError : Int := -1
def libCtosExcmem : Int := -6

def canPriorityLow : UInt8 := 1

end BackupSoftware.Can

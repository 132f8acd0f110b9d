import CustomAi.Lib.ByteMemory
import CustomAi.Lib.Dict

/-!
# The shared-memory ring buffer

`SingleWriterShmRingBuffer` of `vllm/distributed/device_communicators/shm_object_storage.py`, on the
side of the writer. Each chunk of the buffer starts with its id and its size, four bytes each.
-/

namespace CustomAi.Vllm

open ByteMemory

inductive RingBufferError
  | assertionError (message : String)
  | memoryError (message : String)
  | overflowError
  deriving DecidableEq

/-- The buffer of the writer; ends and addresses are positions of an unrolled line. -/
structure SingleWriterShmRingBuffer where
  dataBufferSize : ℤ
  size_pos : 0 < dataBufferSize
  monotonicIdEnd : ℕ := 0
  monotonicIdStart : ℕ := 0
  dataBufferStart : ℤ := 0
  dataBufferEnd : ℤ := 0
  metadata : Dict ℕ ℤ := .empty
  sharedMemory : Memory := fun _ => 0

namespace SingleWriterShmRingBuffer

def idNbytes : ℕ := 4

def sizeNbytes : ℕ := 4

/-- `ID_MAX`, one more than the highest id -/
def idMax : ℕ := 2 ^ 31

def mdSize : ℤ := idNbytes + sizeNbytes

/-- `integer.to_bytes(4, "little", signed=True)` -/
def int2byte (integer : ℤ) : Except RingBufferError (List UInt8) :=
  if integer < -2 ^ 31 ∨ 2 ^ 31 ≤ integer then .error .overflowError
  else .ok (intBytes idNbytes integer)

def byte2int (byteData : List UInt8) : ℤ := intOfBytes byteData

variable (s : SingleWriterShmRingBuffer)

/-- Where a chunk starts: at the end, or at the next beginning if it does not fit. -/
def bufferEndReset (size : ℤ) : ℤ :=
  if s.dataBufferEnd % s.dataBufferSize + size > s.dataBufferSize then
    (s.dataBufferEnd / s.dataBufferSize + 1) * s.dataBufferSize
  else s.dataBufferEnd

def notEnoughSpace : String :=
  "Not enough space in the data buffer, try calling free_buf() to free up space"

/-- The end of `allocate_buf`: metadata are written and the counters move on. -/
def writeChunk (bufferEnd size : ℤ) :
    Except RingBufferError (ℤ × ℕ) × SingleWriterShmRingBuffer :=
  match int2byte s.monotonicIdEnd with
  | .error e => (.error e, { s with dataBufferEnd := bufferEnd })
  | .ok idBytes =>
    match int2byte size with
    | .error e => (.error e, { s with
        dataBufferEnd := bufferEnd
        sharedMemory := write s.sharedMemory (bufferEnd % s.dataBufferSize) idBytes })
    | .ok sizeBytes => (.ok (bufferEnd, s.monotonicIdEnd), { s with
        sharedMemory := write (write s.sharedMemory (bufferEnd % s.dataBufferSize) idBytes)
          (bufferEnd % s.dataBufferSize + idNbytes) sizeBytes
        metadata := s.metadata.set (s.monotonicIdEnd % idMax) bufferEnd
        dataBufferEnd := bufferEnd + size
        monotonicIdEnd := (s.monotonicIdEnd + 1) % idMax })

/-- `allocate_buf`: the address and the id of the new chunk, and what the call leaves. -/
def allocateBuf (size : ℤ) : Except RingBufferError (ℤ × ℕ) × SingleWriterShmRingBuffer :=
  if size ≤ 0 then (.error (.assertionError "Size must be greater than 0"), s)
  else if s.bufferEndReset (size + mdSize) + (size + mdSize) - s.dataBufferStart >
      s.dataBufferSize then (.error (.memoryError notEnoughSpace), s)
  else s.writeChunk (s.bufferEndReset (size + mdSize)) (size + mdSize)

/-- `access_buf`: the data of the chunk at an address, and the id and the size it starts with. -/
def accessBuf (address : ℤ) : List UInt8 × ℤ × ℤ :=
  let bufIdx := address % s.dataBufferSize
  let id := byte2int (read s.sharedMemory bufIdx idNbytes)
  let size := byte2int (read s.sharedMemory (bufIdx + idNbytes) sizeNbytes)
  (read s.sharedMemory (bufIdx + mdSize) (size - mdSize).toNat, id, size)

def removeOldest : SingleWriterShmRingBuffer :=
  let metadata := s.metadata.erase s.monotonicIdStart
  let monotonicIdStart := (s.monotonicIdStart + 1) % idMax
  match metadata.get? monotonicIdStart with
  | some next => { s with
      metadata, monotonicIdStart
      dataBufferStart := s.dataBufferStart + (next - s.dataBufferStart) % s.dataBufferSize }
  | none => { s with metadata, monotonicIdStart, dataBufferStart := 0, dataBufferEnd := 0 }

/-- The loop of `free_buf`; each turn that goes on takes an entry out of `metadata`. -/
def freeLoop (isFreeFn : ℕ → List UInt8 → Bool) (nbytes : ℤ) :
    ℕ → ℤ → SingleWriterShmRingBuffer → SingleWriterShmRingBuffer
  | 0, _, s => s
  | fuel + 1, freedBytes, s =>
    match s.metadata.get? s.monotonicIdStart with
    | none => s
    | some address =>
      if freedBytes < nbytes then
        let (dataBuff, _, size) := s.accessBuf address
        if isFreeFn s.monotonicIdStart dataBuff then
          freeLoop isFreeFn nbytes fuel (freedBytes + size) s.removeOldest
        else s
      else s

/-- The ids from `before` to `after`, which may have wrapped around. -/
def idRange (before after : ℕ) : List ℕ :=
  if after ≥ before then List.range' before (after - before)
  else List.range' before (idMax - before) ++ List.range after

/-- `free_buf`: the ids of the freed chunks, and what the call leaves. -/
def freeBuf (isFreeFn : ℕ → List UInt8 → Bool) (nbytes : Option ℤ) :
    List ℕ × SingleWriterShmRingBuffer :=
  let monotonicIdBefore := s.monotonicIdStart
  let s := freeLoop isFreeFn (nbytes.getD s.dataBufferSize) s.metadata.entries.length 0 s
  let s := if s.dataBufferStart ≥ s.dataBufferSize then { s with
      dataBufferStart := s.dataBufferStart - s.dataBufferSize
      dataBufferEnd := s.dataBufferEnd - s.dataBufferSize }
    else s
  (idRange monotonicIdBefore s.monotonicIdStart, s)

end SingleWriterShmRingBuffer

end CustomAi.Vllm

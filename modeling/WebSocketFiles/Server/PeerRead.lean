import WebSocketFiles.Model.PeerRead
import WebSocketFiles.Server.Steps

/-!
# Queueing what was read

`alloc_work_req` takes a negative result of `uv_buf_alloc_cpy` for a failed copy,
and `uv_buf_alloc_cpy` runs off its end when the copy succeeds.  So whether a chunk
is queued rests on what happens to be left as the result, and, because the size is
passed as an `int`, on its being one (`queuesOnce_iff`).

`onPeerRead_step` relates the callback with its releases to the step of the server.
-/

namespace WebSocketFiles

open MachineInt

/-- A read with data, as libuv reports it: no more bytes than the buffer has, and a
number that fits `ssize_t`. -/
structure PositiveRead where
  buf : Bytes
  nread : Nat
  pos : 0 < nread
  fits : nread ≤ buf.length
  ssize : nread < 9223372036854775808

/-- Copying from a buffer with all its bytes: the copy is made unless the size is
too large. -/
theorem uvBufAllocCpy_full (buf : Bytes) (size ret : Int) :
    uvBufAllocCpy .null ⟨some buf, buf.length⟩ size ret =
      if buf.length < toUInt64 size then .ok (-2, .null)
      else .ok (ret, ⟨some (buf.take (toUInt64 size)), toUInt64 size⟩) := by
  unfold uvBufAllocCpy
  by_cases hLarge : buf.length < toUInt64 size
  · rw [if_pos hLarge, if_pos hLarge]
  · rw [if_neg hLarge, if_neg hLarge, Option.getD_some, if_neg hLarge]

namespace ReadHeap

open HeapEvent

variable (heap : ReadHeap) (c : Nat)

/-- What the failure path of `alloc_work_req` releases. -/
def failureFrees (request : UvBuf) : List HeapEvent :=
  [.free (request.base.map fun _ => heap.request), .free heap.response,
    .free (some heap.workData), .free heap.base]

/-- A chunk is allocated unless the copy reports a failure. -/
theorem allocWorkReq_copied {nread ret copied : Int} {buf request : UvBuf}
    (hCopy : uvBufAllocCpy .null buf (toInt32 nread) ret = .ok (copied, request)) :
    heap.allocWorkReq c nread buf 1 ret =
      if copied < 0 then ⟨heap.failureFrees request, .ok none⟩
      else ⟨[], .ok (some ⟨c, request, .null, 1⟩)⟩ := by
  unfold allocWorkReq
  simp only [if_true, hCopy, Traced.liftM_ok, Traced.mk_ok_bind, Traced.prepend_nil]
  split
  · rfl
  · rfl

/-- The callback after a read with data, by the result of the copy. -/
theorem onPeerRead_copied {nread ret copied rc : Int} {buf : Bytes} {request : UvBuf}
    (hPos : 0 < nread)
    (hCopy : uvBufAllocCpy .null ⟨some buf, buf.length⟩ (toInt32 nread) ret =
      .ok (copied, request)) :
    heap.onPeerRead c nread buf ret rc =
      Traced.prepend
        (if copied < 0 then heap.failureFrees request ++ [.uvQueueWork none]
          else [.uvQueueWork (some ⟨c, request, .null, 1⟩)])
        (if rc < 0 then fail else Traced.emit (.free heap.base)) := by
  unfold onPeerRead
  simp only [if_neg (show ¬ nread < 0 by omega), if_neg (show ¬ nread = 0 by omega),
    heap.allocWorkReq_copied c hCopy]
  split
  · split
    · rfl
    · rfl
  · split
    · rfl
    · rfl

/-- The read queues one item of the client, with a copy of the bytes read, and
releases `buf->base` once and nothing else. -/
def QueuesOnce (r : PositiveRead) (ret rc : Int) : Prop :=
  ∃ workData : PeerWorkData,
    queued (heap.onPeerRead c r.nread r.buf ret rc).events = [some workData] ∧
      workData.uvclient = c ∧ workData.type = 1 ∧
      workData.request = ⟨some (r.buf.take r.nread), r.nread⟩ ∧
      frees (heap.onPeerRead c r.nread r.buf ret rc).events = [heap.base] ∧
      (heap.onPeerRead c r.nread r.buf ret rc).value = .ok ()

/-- What counts is the result of the copy, and the copy itself. -/
theorem queuesOnce_copied {r : PositiveRead} {ret copied rc : Int} {request : UvBuf}
    (hCopy : uvBufAllocCpy .null ⟨some r.buf, r.buf.length⟩ (toInt32 r.nread) ret =
      .ok (copied, request)) :
    heap.QueuesOnce c r ret rc ↔
      0 ≤ copied ∧ 0 ≤ rc ∧ request = ⟨some (r.buf.take r.nread), r.nread⟩ := by
  have hPos : 0 < (r.nread : Int) := Int.natCast_pos.mpr r.pos
  unfold QueuesOnce
  rw [heap.onPeerRead_copied c hPos hCopy]
  constructor
  · rintro ⟨workData, hQueued, -, -, hRequest, -, hValue⟩
    by_cases hCopied : copied < 0
    · -- the failure path queues NULL
      rw [if_pos hCopied] at hQueued
      split at hQueued
      · exact absurd hQueued (by simp [failureFrees, queued, fail, Traced.ofExcept])
      · exact absurd hQueued (by simp [failureFrees, queued])
    · rw [if_neg hCopied] at hQueued
      by_cases hRc : rc < 0
      · rw [if_pos hRc] at hValue
        exact absurd hValue (by simp [fail, Traced.ofExcept])
      · rw [if_neg hRc] at hQueued
        have hSame : workData = ⟨c, request, .null, 1⟩ := by
          simpa [queued] using hQueued.symm
        rw [hSame] at hRequest
        exact ⟨not_lt.mp hCopied, not_lt.mp hRc, hRequest⟩
  · rintro ⟨hCopied, hRc, hRequest⟩
    rw [if_neg (not_lt.mpr hCopied), if_neg (not_lt.mpr hRc)]
    exact ⟨_, rfl, rfl, rfl, hRequest, rfl, rfl⟩

/-- A read is queued once exactly when its size is an `int`, the result that the
copy leaves is not negative, and `uv_queue_work` reports no error. -/
theorem queuesOnce_iff (r : PositiveRead) (ret rc : Int) :
    heap.QueuesOnce c r ret rc ↔ r.nread < 2147483648 ∧ 0 ≤ ret ∧ 0 ≤ rc := by
  have hInt := toUInt64_toInt32_eq_iff r.ssize
  have hCopy := uvBufAllocCpy_full r.buf (toInt32 r.nread) ret
  by_cases hLarge : r.buf.length < toUInt64 (toInt32 r.nread)
  · -- a size that is not an `int` is reported as too large, or is another size
    rw [if_pos hLarge] at hCopy
    rw [heap.queuesOnce_copied c hCopy]
    have hNot : ¬ r.nread < 2147483648 := by
      intro hSize
      rw [hInt.mpr hSize] at hLarge
      exact absurd r.fits (Nat.not_le.mpr hLarge)
    constructor
    · rintro ⟨hNeg, -, -⟩
      exact absurd hNeg (by decide)
    · exact fun hAll => absurd hAll.1 hNot
  · rw [if_neg hLarge] at hCopy
    rw [heap.queuesOnce_copied c hCopy]
    constructor
    · rintro ⟨hRet, hRc, hRequest⟩
      exact ⟨hInt.mp (UvBuf.mk.inj hRequest).2, hRet, hRc⟩
    · rintro ⟨hSize, hRet, hRc⟩
      rw [hInt.mpr hSize]
      exact ⟨hRet, hRc, rfl⟩

/-- A read of one byte. -/
def oneByteRead : PositiveRead := ⟨[71], 1, by decide, by decide, by decide⟩

/-- When the copy leaves a negative result, NULL is queued, and `buf->base` is released
twice, the second time when `uv_queue_work` returns from its call with NULL. -/
theorem oneByteRead_released_twice :
    ¬ QueuesOnce ⟨some 1, 2, 3, none⟩ 0 oneByteRead (-1) 0 ∧
      queued (onPeerRead ⟨some 1, 2, 3, none⟩ 0 1 [71] (-1) 0).events = [none] ∧
      frees (onPeerRead ⟨some 1, 2, 3, none⟩ 0 1 [71] (-1) 0).events =
        [some 2, none, some 3, some 1, some 1] := by
  have hCopy : uvBufAllocCpy .null ⟨some [71], 1⟩ (toInt32 1) (-1) = .ok (-1, ⟨some [71], 1⟩) := by
    decide +kernel
  have hCall : onPeerRead ⟨some 1, 2, 3, none⟩ 0 1 [71] (-1) 0 = _ :=
    onPeerRead_copied _ 0 (by decide) hCopy
  refine ⟨?_, ?_, ?_⟩
  · rw [queuesOnce_copied (r := oneByteRead) _ _ hCopy]
    exact fun hAll => absurd hAll.1 (by decide)
  · rw [hCall]
    rfl
  · rw [hCall]
    rfl

/-! ## The step of the server -/

variable {c}

/-- The step of the server that reads is the callback: it queues what the callback
queues, and ends the process when that is NULL. -/
theorem onPeerRead_step {s : Server} {ep : WebSocketEndpoint} {nread : Int} {buf : Bytes}
    (ret : Int) (hPeer : s.peers[c]? = some (.connected ep true)) (hFits : nread ≤ buf.length)
    (hSize : buf.length < 2147483648) :
    s.onPeerRead c nread buf ret =
      match queued (heap.onPeerRead c nread buf ret 0).events with
      | [some workData] => some { s with
          peers := if nread < 0 then s.peers.set c (.connected ep false) else s.peers
          queue := s.queue ++ [workData] }
      | [none] => some s.exit
      | _ => some s := by
  unfold Server.onPeerRead
  rw [hPeer]
  simp only
  rw [if_neg (by omega)]
  by_cases hNeg : nread < 0
  · -- the end of the connection, which copies nothing
    have hQueued : queued (heap.onPeerRead c nread buf ret 0).events =
        [some (PeerWorkData.closing c)] := by
      unfold onPeerRead
      rw [if_pos hNeg]
      rfl
    rw [if_pos hNeg, Server.allocWorkReq_closing, hQueued]
    simp only [if_pos hNeg]
  · by_cases hZero : nread = 0
    · have hQueued : queued (heap.onPeerRead c nread buf ret 0).events = [] := by
        unfold onPeerRead
        rw [if_neg hNeg, if_pos hZero]
        rfl
      rw [if_neg hNeg, if_pos hZero, hQueued]
    · have hLength : toUInt64 (toInt32 nread) = nread.toNat := by
        rw [toInt32_of_lt (by omega) (by omega), toUInt64_of_lt (by omega) (by omega)]
      have hCopy := uvBufAllocCpy_full buf (toInt32 nread) ret
      rw [hLength, if_neg (by omega)] at hCopy
      have hTake : (buf.take nread.toNat).length = nread.toNat := by
        rw [List.length_take]
        omega
      rw [if_neg hNeg, if_neg hZero, Server.allocWorkReq_chunk c ret (by omega) hFits hSize,
        heap.onPeerRead_copied c (by omega) hCopy]
      by_cases hRet : ret < 0
      · rw [if_pos hRet, if_pos hRet]
        rfl
      · rw [if_neg hRet, if_neg hRet, PeerWorkData.chunk, hTake]
        simp only [if_neg hNeg]
        rfl

end ReadHeap

end WebSocketFiles

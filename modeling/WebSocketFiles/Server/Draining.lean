import WebSocketFiles.Server.Ordering

/-!
# What is waiting gets done

A step of the worker, a completion callback and the callback of a write each carry an
item one place further, and take none back; so a server that reads nothing more makes
only a bounded number of steps (`Server.work`), whatever the order of its threads, and
it can stop only with all its queues empty, or with the process.
-/

namespace WebSocketFiles

open History Transition

namespace Server

/-- The steps that serve what is waiting: those that are not of the outside. -/
def Serving : Action → Prop
  | .worker _ | .onWorkCompleted _ _ | .onSentResponse _ _ => True
  | .onPeerConnected _ | .onPeerRead _ _ _ _ => False

instance : ∀ a, Decidable (Serving a)
  | .worker _ | .onWorkCompleted _ _ | .onSentResponse _ _ => .isTrue trivial
  | .onPeerConnected _ | .onPeerRead _ _ _ _ => .isFalse id

/-- How many steps the items still have before them, and one for the process to end. -/
def work (s : Server) : Nat :=
  if s.exited then 0 else 1 + 3 * s.queue.length + 2 * s.finished.length + s.writing.length

/-- A step that serves an item leaves less to do. -/
theorem work_step {s s' : Server} {a : Action} (hServing : Serving a)
    (hStep : s.step a = some s') : s'.work < s.work := by
  obtain ⟨hRunning, hCase⟩ := step_cases hStep
  unfold work
  cases hCase with
  | stops hStops =>
      simp only [exit, hRunning, if_true, Bool.false_eq_true, if_false]
      omega
  | connects ntWorkData => exact hServing.elim
  | quiet ret hPeer hSize => exact hServing.elim
  | reads hPeer hPos hFits hSize hRet => exact hServing.elim
  | ends ret hPeer hNeg hSize => exact hServing.elim
  | submits hQueue hType hPeer hWork =>
      simp only [hRunning, hQueue, Bool.false_eq_true, if_false, List.length_append,
        List.length_cons, List.length_nil]
      omega
  | closes mem hQueue hType hPeer =>
      simp only [hRunning, hQueue, Bool.false_eq_true, if_false, List.length_cons]
      omega
  | drops rc hFinished hNone =>
      simp only [hRunning, hFinished, Bool.false_eq_true, if_false, List.length_cons]
      omega
  | writes hFinished hSome hRc =>
      simp only [hRunning, hFinished, Bool.false_eq_true, if_false, List.length_append,
        List.length_cons, List.length_nil]
      omega
  | sends hIndex =>
      simp only [hRunning, Bool.false_eq_true, if_false, List.length_eraseIdx_of_lt hIndex]
      omega

/-- While an item waits anywhere, a step can serve it. -/
theorem serving_next {s : Server} (hRunning : s.exited = false)
    (hWaits : s.queue ≠ [] ∨ s.finished ≠ [] ∨ s.writing ≠ []) :
    ∃ a, Serving a ∧ s.step a ≠ none := by
  have hGoes : ¬ s.exited = true := by
    rw [hRunning]
    decide
  rcases hWaits with hQueue | hFinished | hWriting
  · refine ⟨.worker zeroedMem, trivial, ?_⟩
    obtain ⟨workData, rest, hItems⟩ := List.exists_cons_of_ne_nil hQueue
    simp only [step, if_neg hGoes, worker, hItems]
    split
    · split
      · split <;> simp
      · simp
    · simp
  · refine ⟨.onWorkCompleted 1 0, trivial, ?_⟩
    obtain ⟨workData, rest, hItems⟩ := List.exists_cons_of_ne_nil hFinished
    simp [step, hRunning, onWorkCompleted, hItems]
  · refine ⟨.onSentResponse 0 1, trivial, ?_⟩
    have hIndex := List.length_pos_iff.mpr hWriting
    simp only [step, if_neg hGoes, onSentResponse]
    rw [if_neg (not_le.mpr hIndex)]
    simp

/-- Where all queues are empty no step serves anything. -/
theorem step_of_drained {s : Server} (hQueue : s.queue = []) (hFinished : s.finished = [])
    (hWriting : s.writing = []) {a : Action} (hServing : Serving a) : s.step a = none := by
  cases a with
  | worker mem => simp [step, worker, hQueue]
  | onWorkCompleted rc reqs => simp [step, onWorkCompleted, hFinished]
  | onSentResponse i reqs => simp [step, onSentResponse, hWriting]
  | onPeerConnected ntWorkData => exact hServing.elim
  | onPeerRead c nread buf ret => exact hServing.elim

/-- Nothing that was read gets stuck.  From any state that the server reaches, serving
what is waiting comes to an end, in whatever order the threads take their steps; and
where no step is left, either the process has ended, or every chunk that was read has
been processed and every response was handed to `uv_write` and sent. -/
theorem serving_ends {run later : List (Server × Action)} {s s' : Server}
    (hReach : Reaches step init run s) (hLater : Reaches step s later s')
    (hServing : Always (fun _ q => Serving q.2) later) :
    later.length ≤ s.work ∧ ((∀ a, Serving a → s'.step a = none) → s'.exited = true ∨
      (s'.queue = [] ∧ s'.finished = [] ∧ s'.writing = []) ∧
        ∀ c, (run ++ later).flatMap (chunksProcessed c) = (run ++ later).flatMap (chunksRead c) ∧
          (run ++ later).flatMap (handedToWrite c) =
            (run ++ later).flatMap (responsesProduced c) ∧
          ((run ++ later).flatMap (handedToWrite c)).Perm
            ((run ++ later).flatMap (responsesSent c))) := by
  have hBound := hLater.length_le work
    (fun _ _ _ _ hServing hStep => work_step hServing hStep) hServing
  refine ⟨by omega, fun hStuck => ?_⟩
  rcases hExited : s'.exited with _ | _
  swap
  · exact .inl rfl
  have hDrained : s'.queue = [] ∧ s'.finished = [] ∧ s'.writing = [] := by
    by_contra hWaits
    obtain ⟨a, hServing, hStep⟩ := serving_next hExited (by tauto)
    exact hStep (hStuck a hServing)
  refine .inr ⟨hDrained, fun c => ?_⟩
  have hTracked := reaches_tracked (hReach.append hLater) hExited
  obtain ⟨hProcessed, hHanded⟩ := (hTracked.inOrder c).complete hDrained.1 hDrained.2.1
  have hSent := hTracked.writes c
  rw [responsesInFlight, hDrained.2.2, List.filter_nil, List.flatMap_nil, List.append_nil] at hSent
  exact ⟨hProcessed, hHanded, hSent⟩

/-- What is left to do for the two clients: the response of client 1 is on its way, and
client 0 has its request waiting. -/
def drainActions : List Action :=
  [.onSentResponse 0 0, .worker zeroedMem, .onWorkCompleted 0 0, .onSentResponse 0 0]

/-- All four steps are taken, and nothing waits behind them. -/
theorem drain_run :
    (record step [] init twoClientsActions).2.work = 5 ∧
      (record step [] (record step [] init twoClientsActions).2 drainActions).1.length = 4 ∧
      (record step [] (record step [] init twoClientsActions).2 drainActions).2.exited = false ∧
      (record step [] (record step [] init twoClientsActions).2 drainActions).2.queue = [] ∧
      (record step [] (record step [] init twoClientsActions).2 drainActions).2.finished = [] ∧
      (record step [] (record step [] init twoClientsActions).2 drainActions).2.writing = [] := by
  decide +kernel

/-- Four steps of at most five serve both clients, and none is left. -/
theorem serving_ends_two :
    (record step [] (record step [] init twoClientsActions).2 drainActions).1.length = 4 ∧
      (record step [] init twoClientsActions).2.work = 5 ∧
      ∀ c, ((record step [] init twoClientsActions).1 ++
          (record step [] (record step [] init twoClientsActions).2 drainActions).1).flatMap
            (handedToWrite c) =
        ((record step [] init twoClientsActions).1 ++
          (record step [] (record step [] init twoClientsActions).2 drainActions).1).flatMap
            (responsesProduced c) := by
  obtain ⟨hWork, hLength, hRunning, hQueue, hFinished, hWriting⟩ := drain_run
  obtain ⟨-, hEnd⟩ := serving_ends (reaches_record twoClientsActions .start)
    (reaches_record drainActions .start)
    (always_record drainActions always_nil (by simp [drainActions, Serving]))
  rcases hEnd (fun _ => step_of_drained hQueue hFinished hWriting) with hExited | ⟨-, hDone⟩
  · rw [hRunning] at hExited
    exact absurd hExited Bool.false_ne_true
  · exact ⟨hLength, hWork, fun c => (hDone c).2.1⟩

end Server

end WebSocketFiles

import Spaceshuttle.Kernel.Interleaved

/-!
# One handler after the other

A task that no other one interrupts does what `handleFrame` says, so the runs of the frame handler
are among the interleavings of the tasks.
-/

namespace Spaceshuttle.Kernel

open Threads Threads.Pool Voorproever

namespace FrameTask

variable {cfg : TrustKernelConfig} {k : TrustKernel} {nowNs : UInt64} {frame : TibetMuxFrame}

/-! ## The check -/

/-- A miss takes a task to the counter of the misses. -/
theorem alone_late (hactive : k.watchdog.active = true)
    (hlate : Watchdog.overTimeout k.watchdog.timeoutMs nowNs k.watchdog.lastResponseNs = true) :
    Alone (FrameTask.step cfg) (new frame) ⟨k, false⟩ ⟨frame, .addMissed, none, none, false, false⟩
      ⟨k, false⟩ := by
  refine .step nowNs ⟨frame, .loadResponse nowNs, none, none, false, false⟩ ⟨k, false⟩ ?_
    (.step nowNs _ _ ?_ (.still _ _))
  · simp only [FrameTask.step, new, hactive, if_true]
  · simp only [FrameTask.step, hlate, if_true]

/-- A task by itself comes past a check that does not trigger. -/
theorem alone_healthy (h : (k.watchdog.check nowNs).2.isTriggered = false) :
    Alone (FrameTask.step cfg) (new frame) ⟨k, false⟩
      ⟨frame, .afterCheck cfg frame, none, none, false, false⟩
      ⟨⟨k.bus, (k.watchdog.check nowNs).1⟩, false⟩ := by
  cases hactive : k.watchdog.active with
  | false =>
    rw [(check_quiet (by rw [hactive, Bool.false_and])).1]
    refine .step nowNs _ _ ?_ (.still _ _)
    simp only [FrameTask.step, new, hactive, Bool.false_eq_true, if_false]
  | true =>
    cases hlate : Watchdog.overTimeout k.watchdog.timeoutMs nowNs k.watchdog.lastResponseNs with
    | false =>
      rw [(check_quiet (by rw [hlate, Bool.and_false])).1]
      refine .step nowNs ⟨frame, .loadResponse nowNs, none, none, false, false⟩ ⟨k, false⟩ ?_
        (.step nowNs _ _ ?_ (.still _ _))
      · simp only [FrameTask.step, new, hactive, if_true]
      · simp only [FrameTask.step, hlate, Bool.false_eq_true, if_false]
    | true =>
      obtain ⟨hcheck, htriggered⟩ := check_miss hactive hlate
      have hmax : ¬ k.watchdog.maxMissed ≤ k.watchdog.missedCount.toUInt32 + 1 :=
        of_decide_eq_false (htriggered.symm.trans h)
      rw [hcheck, decide_eq_false hmax, Bool.or_false]
      refine (alone_late hactive hlate).trans (.step nowNs _ _ ?_ (.still _ _))
      simp only [FrameTask.step, ge_iff_le, if_neg hmax]

/-- A task by itself shuts the bus. -/
theorem alone_shutdown :
    Alone (FrameTask.step cfg) ⟨frame, .storeTriggered, none, none, false, true⟩ ⟨k, false⟩
      ⟨frame, .ended [sendResponse frame (.generateRejected frame) 503], none, none, false, true⟩
      ⟨⟨k.bus.shutdown, { k.watchdog with triggered := true }⟩, false⟩ :=
  .step 0 ⟨frame, .storeClosed, none, none, false, true⟩
    ⟨⟨k.bus, { k.watchdog with triggered := true }⟩, false⟩ rfl
    (.step 0 ⟨frame, .countKill, none, none, false, true⟩
      ⟨⟨{ k.bus with isOpen := false }, { k.watchdog with triggered := true }⟩, false⟩ rfl
      (.step 0 _ _ rfl (.still _ _)))

/-- It does so after a check that triggers. -/
theorem alone_triggered (h : (k.watchdog.check nowNs).2.isTriggered = true) :
    Alone (FrameTask.step cfg) (new frame) ⟨k, false⟩
      ⟨frame, .ended [sendResponse frame (.generateRejected frame) 503], none, none, false, true⟩
      ⟨⟨k.bus.shutdown, (k.watchdog.check nowNs).1⟩, false⟩ := by
  have hmiss : (k.watchdog.active &&
      Watchdog.overTimeout k.watchdog.timeoutMs nowNs k.watchdog.lastResponseNs) = true := by
    rw [← Bool.not_eq_false]
    intro hquiet
    rw [(check_quiet hquiet).2] at h
    cases h
  obtain ⟨hactive, hlate⟩ := (Bool.and_eq_true _ _).mp hmiss
  obtain ⟨hcheck, htriggered⟩ := check_miss hactive hlate
  have hmax : k.watchdog.maxMissed ≤ k.watchdog.missedCount.toUInt32 + 1 :=
    of_decide_eq_true (htriggered.symm.trans h)
  rw [hcheck, decide_eq_true hmax, Bool.or_true]
  refine (alone_late hactive hlate).trans (.step nowNs
    ⟨frame, .storeTriggered, none, none, false, true⟩
    ⟨⟨k.bus, { k.watchdog with missedCount := k.watchdog.missedCount + 1 }⟩, false⟩ ?_
    alone_shutdown)
  simp only [FrameTask.step, ge_iff_le, if_pos hmax]

/-! ## The two kernels -/

/-- A task by itself goes on with the verdict when the watchdog has been notified. -/
theorem alone_responded (verdict : VoorproeverVerdict) (stamped : Option UInt64) :
    Alone (FrameTask.step cfg) ⟨frame, .storeResponse verdict, none, stamped, false, false⟩
      ⟨k, false⟩ ⟨frame, .afterVerdict frame verdict, none, stamped, false, false⟩
      ⟨⟨k.bus, k.watchdog.kernelAResponded nowNs⟩, false⟩ :=
  .step nowNs ⟨frame, .clearMissed verdict, none, stamped, false, false⟩
    ⟨⟨k.bus, { k.watchdog with lastResponseNs := nowNs }⟩, false⟩ rfl
    (.step nowNs _ _ rfl (.still _ _))

/-- The next number is stored and the payload counted. -/
theorem alone_stored (payload : BusPayload) (stamped : Option UInt64) :
    Alone (FrameTask.step cfg) ⟨frame, .storeExpected payload false, none, stamped, true, false⟩
      ⟨k, false⟩ ⟨frame, .afterReceive cfg frame payload none, none, stamped, true, false⟩
      ⟨⟨{ k.bus with
          nextExpectedSeq := payload.seq + 1
          stats := { k.bus.stats with payloadsPassed := k.bus.stats.payloadsPassed + 1 } },
        k.watchdog⟩, false⟩ :=
  .step 0 ⟨frame, .countPassed payload false, none, stamped, true, false⟩
    ⟨⟨{ k.bus with nextExpectedSeq := payload.seq + 1 }, k.watchdog⟩, false⟩ rfl
    (.step 0 _ _ rfl (.still _ _))

/-- A gap is counted before. -/
theorem alone_gap (payload : BusPayload) (stamped : Option UInt64) (gap : UInt64 × UInt64) :
    Alone (FrameTask.step cfg) ⟨frame, .countGap payload, some gap, stamped, true, false⟩
      ⟨k, false⟩ ⟨frame, .afterReceive cfg frame payload (some gap), some gap, stamped, true, false⟩
      ⟨⟨{ k.bus with
          nextExpectedSeq := payload.seq + 1
          stats := { k.bus.stats with
            payloadsPassed := k.bus.stats.payloadsPassed + 1
            sequenceGapsDetected := k.bus.stats.sequenceGapsDetected + 1 } },
        k.watchdog⟩, false⟩ := by
  let stats := { k.bus.stats with sequenceGapsDetected := k.bus.stats.sequenceGapsDetected + 1 }
  exact .step 0 ⟨frame, .storeExpected payload true, some gap, stamped, true, false⟩
    ⟨⟨{ k.bus with stats }, k.watchdog⟩, true⟩ rfl
    (.step 0 ⟨frame, .countPassed payload true, some gap, stamped, true, false⟩
      ⟨⟨{ k.bus with stats, nextExpectedSeq := payload.seq + 1 }, k.watchdog⟩, true⟩ rfl
      (.step 0 _ _ rfl (.still _ _)))

/-- A task by itself hands a payload to Kernel B. -/
theorem alone_received (payload : BusPayload) (stamped : Option UInt64) :
    ∃ t', Alone (FrameTask.step cfg) ⟨frame, .loadOpen payload, none, stamped, false, false⟩
        ⟨k, false⟩ t'
        ⟨⟨(Archivaris.process cfg ⟨[]⟩ k.bus payload frame).2.1, k.watchdog⟩, false⟩ ∧
      t'.frame = frame ∧
      t'.spot = .ended (respond frame (Archivaris.process cfg ⟨[]⟩ k.bus payload frame).2.2) := by
  unfold Archivaris.process VirtualBus.receive
  by_cases hclosed : (!k.bus.isOpen) = true
  · simp only [if_pos hclosed]
    refine ⟨⟨frame, .ended (respond frame .busClosed), none, stamped, false, false⟩,
      .step 0 _ _ ?_ (.still _ _), rfl, rfl⟩
    simp only [FrameTask.step, if_pos hclosed]
  · simp only [if_neg hclosed]
    by_cases hlarge : payload.payload.utf8ByteSize > k.bus.maxPayloadBytes
    · simp only [if_pos hlarge]
      refine ⟨⟨frame, .ended (respond frame _), none, stamped, false, false⟩,
        .step 0 _ _ ?_ (.still _ _), rfl, rfl⟩
      simp only [FrameTask.step, if_neg hclosed, if_pos hlarge]
    · simp only [if_neg hlarge]
      have hloaded : Alone (FrameTask.step cfg)
          ⟨frame, .loadOpen payload, none, stamped, false, false⟩ ⟨k, false⟩
          ⟨frame, .loadExpected payload, none, stamped, false, false⟩ ⟨k, false⟩ := by
        refine .step 0 _ _ ?_ (.still _ _)
        simp only [FrameTask.step, if_neg hclosed, if_neg hlarge]
      by_cases hseq : payload.seq ≠ k.bus.nextExpectedSeq
      · simp only [if_pos hseq]
        refine ⟨⟨frame, .afterReceive cfg frame payload (some (k.bus.nextExpectedSeq, payload.seq)),
          some (k.bus.nextExpectedSeq, payload.seq), stamped, true, false⟩,
          hloaded.trans (.step 0 ⟨frame, .countGap payload,
            some (k.bus.nextExpectedSeq, payload.seq), stamped, true, false⟩ ⟨k, false⟩ ?_
            (alone_gap payload stamped _)), rfl, rfl⟩
        simp only [FrameTask.step, if_pos hseq]
      · simp only [if_neg hseq]
        refine ⟨⟨frame, .afterReceive cfg frame payload none, none, stamped, true, false⟩,
          hloaded.trans (.step 0 ⟨frame, .storeExpected payload false, none, stamped, true, false⟩
            ⟨k, false⟩ ?_ (alone_stored payload stamped)), rfl, rfl⟩
        simp only [FrameTask.step, if_neg hseq]

end FrameTask

/-- A task by itself does what the frame handler does. -/
theorem alone_handleFrame (cfg : TrustKernelConfig) (k : TrustKernel) (a : Arrival) :
    ∃ t', Alone (FrameTask.step cfg) (.new a.frame) ⟨k, false⟩ t' ⟨(handleFrame cfg k a).1, false⟩ ∧
      t'.frame = a.frame ∧ t'.spot = .ended (handleFrame cfg k a).2.responses := by
  unfold handleFrame
  cases htriggered : (k.watchdog.check a.checkedAtNs).2.isTriggered with
  | true =>
    simp only [htriggered, if_true]
    exact ⟨_, FrameTask.alone_triggered htriggered, rfl, rfl⟩
  | false =>
    have hcheck := @FrameTask.alone_healthy cfg k _ a.frame htriggered
    simp only [htriggered, Bool.false_eq_true, if_false]
    generalize (k.watchdog.check a.checkedAtNs).1 = w at hcheck ⊢
    unfold evaluate
    unfold Spot.afterCheck at hcheck
    cases hknown : isKnownIntent a.frame.intent with
    | false =>
      simp only [hknown, Bool.not_false, if_true] at hcheck ⊢
      exact ⟨_, hcheck, rfl, rfl⟩
    | true =>
      cases hclean : (monitorOf cfg a.frame).violations.isEmpty with
      | false =>
        simp only [hknown, hclean, Bool.not_true, Bool.not_false, Bool.false_eq_true, if_false,
          if_true] at hcheck ⊢
        exact ⟨_, hcheck.trans (FrameTask.alone_responded _ none), rfl, rfl⟩
      | true =>
        simp only [hknown, hclean, Bool.not_true, Bool.false_eq_true, if_false] at hcheck ⊢
        obtain ⟨t', hreceived, hframe, hspot⟩ := @FrameTask.alone_received cfg
          ⟨(k.bus.stampPayload a.stampedAtNs a.frame.intent a.frame.payload a.frame.fromAint
            (monitorOf cfg a.frame).observedSyscalls (computeFira cfg)).1,
            w.kernelAResponded a.respondedAtNs⟩ a.frame
          (k.bus.stampPayload a.stampedAtNs a.frame.intent a.frame.payload a.frame.fromAint
            (monitorOf cfg a.frame).observedSyscalls (computeFira cfg)).2 (some k.bus.seqCounter)
        refine ⟨t', ?_, hframe, hspot⟩
        exact hcheck.trans (.step a.stampedAtNs _ _ rfl
          ((FrameTask.alone_responded _ _).trans hreceived))

/-- Every run of the frame handler is an interleaving of the tasks: the one in which each task runs
to its end before the next frame arrives. -/
theorem serial_runs (cfg : TrustKernelConfig) (bootNs : UInt64) (arrivals : List Arrival) :
    ∃ events : List FrameEvent,
      (concurrent cfg bootNs events).shared =
        ⟨Machine.run (handleFrame cfg) (boot cfg bootNs) arrivals, false⟩ ∧
      (concurrent cfg bootNs events).threads.map (fun t => (t.frame, t.spot)) =
        (Machine.history (handleFrame cfg) (boot cfg bootNs) arrivals).map
          fun handled => (handled.1.frame, .ended handled.2.responses) := by
  induction arrivals using List.reverseRecOn with
  | nil => exact ⟨[], rfl, rfl⟩
  | append_singleton arrivals a ih =>
    obtain ⟨events, hshared, hthreads⟩ := ih
    rw [Machine.run_concat, Machine.history_concat, List.map_append, List.map_singleton, ← hthreads]
    generalize Machine.run (handleFrame cfg) (boot cfg bootNs) arrivals = k at hshared ⊢
    obtain ⟨t, halone, hframe, hspot⟩ := alone_handleFrame cfg k a
    obtain ⟨inputs, hafter⟩ := halone.after (concurrent cfg bootNs events).threads []
    have hrun : concurrent cfg bootNs (events ++ .arrive a.frame ::
        inputs.map (.run (concurrent cfg bootNs events).threads.length)) =
        ⟨⟨(handleFrame cfg k a).1, false⟩, (concurrent cfg bootNs events).threads ++ [t]⟩ := by
      rw [← hafter, concurrent, List.map_append, Pool.after_append, List.map_cons, List.map_map,
        ← hshared]
      rfl
    refine ⟨_, congrArg Pool.shared hrun, ?_⟩
    rw [hrun, List.map_append, List.map_singleton, hframe, hspot]

end Spaceshuttle.Kernel

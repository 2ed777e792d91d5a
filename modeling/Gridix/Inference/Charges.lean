import Gridix.Base.DecimalContext
import Gridix.Inference.Streaming
import Gridix.Inference.Unary

/-!
# What inference charges

A request is charged by the rows `charge_usage` posts.  The hold, the charge
and the fee are each rounded half-up to USDC's six decimals, from amounts
that are cut at the worst case before they are rounded.
-/

namespace Gridix

open List

def charges (rows : Ledger) : Ledger := rows.filter fun group => group.reason == .inferenceUsage

@[simp] theorem charges_nil : charges [] = [] := rfl

@[simp] theorem charges_append (earlier later : Ledger) :
    charges (earlier ++ later) = charges earlier ++ charges later :=
  filter_append ..

@[simp] theorem charges_returnRows (developerId : Uuid) (held : Int) :
    charges (returnRows developerId held) = [] := by
  unfold returnRows
  split <;> rfl

def chargeFor (settings : Settings) (developerId providerId : Uuid) (actual : ℚ) : Ledger :=
  if quantizeUsdc actual ≤ 0 then []
  else chargeRows settings developerId providerId (quantizeUsdc actual)

@[simp] theorem charges_chargeFor (settings : Settings)
    (developerId providerId : Uuid) (actual : ℚ) :
    charges (chargeFor settings developerId providerId actual) =
      chargeFor settings developerId providerId actual := by
  unfold chargeFor
  split <;> rfl

variable {actual : ℚ} {request : InferenceRequest} {spec : ModelSpec} {runtime : Runtime}

theorem chargeFor_of_nonpos (settings : Settings)
    (developerId providerId : Uuid) (nonpos : actual ≤ 0) :
    chargeFor settings developerId providerId actual = [] := by
  have rounded := quantizeUsdc_mono nonpos
  have zero : quantizeUsdc 0 = 0 := by decide +kernel
  exact if_pos (zero ▸ rounded)

@[simp] theorem charges_settledRows (settings : Settings) (stream : ChatStream) (actual : ℚ) :
    charges (settledRows settings stream actual) =
      chargeFor settings stream.developerId stream.providerId actual := by
  change charges (_ ++ chargeFor _ _ _ _) = _
  simp

/-- A charge within the hold of `worstCase`, split into a fee and an earning
that are whole numbers of USDC's smallest unit. -/
def BoundedCharge (developerId providerId : Uuid) (worstCase : ℚ) (group : LedgerGroup) : Prop :=
  ∃ cost fee earning : Int, group.postings =
      [{ account := .developer, direction := .debit, amount := cost,
         accountRef := some developerId },
       { account := .provider, direction := .credit, amount := earning,
         accountRef := some providerId }] ++
      (if 0 < fee then
        [{ account := .protocol, direction := .credit, amount := fee,
           accountRef := none }]
       else []) ∧
    cost ≤ heldAmount worstCase ∧
    toDecimal cost ≤ worstCase + 5 / 10 ^ 7 ∧
    (0 ≤ fee ∧ 100 ∣ fee) ∧ (0 ≤ earning ∧ 100 ∣ earning) ∧
    fee + earning = cost

theorem boundedCharge_of_le {settings : Settings} {developerId providerId : Uuid} {worstCase : ℚ}
    (within : actual ≤ worstCase) {group : LedgerGroup}
    (charged : group ∈ chargeFor settings developerId providerId actual) :
    BoundedCharge developerId providerId worstCase group := by
  unfold chargeFor at charged
  split at charged
  · cases charged
  · have pos : 0 ≤ quantizeUsdc actual := by omega
    have whole := dvd_quantizeUsdc actual
    have feeWhole : 100 ∣ usageFee settings (quantizeUsdc actual) := dvd_quantizeUsdc _
    have feeLe := usageFee_le settings pos
    cases mem_singleton.mp charged
    refine ⟨quantizeUsdc actual, usageFee settings (quantizeUsdc actual),
      quantizeUsdc actual - usageFee settings (quantizeUsdc actual), rfl,
      quantizeUsdc_le_heldAmount within, ?_,
      ⟨usageFee_nonneg settings pos, feeWhole⟩,
      ⟨by omega, dvd_sub whole feeWhole⟩, by omega⟩
    calc toDecimal (quantizeUsdc actual)
        ≤ actual + 5 / 10 ^ 7 := toDecimal_quantizeUsdc_le actual
      _ ≤ worstCase + 5 / 10 ^ 7 := by linarith

theorem length_chargeFor_le (settings : Settings) (developerId providerId : Uuid) (actual : ℚ) :
    (chargeFor settings developerId providerId actual).length ≤ 1 := by
  unfold chargeFor
  split
  · exact Nat.zero_le 1
  · exact le_rfl

def InferenceRequest.worstCaseOf (spec : ModelSpec) : InferenceRequest → ℚ
  | .chat body =>
    chatWorstCase spec (promptTokenBound body) (maxOutput body spec)
  | .image body => imageCost spec body.n

theorem imageCost_mono {fewer more : Int} (priced : 0 ≤ spec.usdcPerImage) (le : fewer ≤ more) :
    imageCost spec fewer ≤ imageCost spec more := by
  apply DecimalContext.significant_mono (by decide)
  apply mul_le_mul_of_nonneg_left _ priced
  exact_mod_cast max_le_max_right 0 le

theorem InferenceRequest.read_le {reply : Py.Value} {billed : ℚ}
    {completion : Completion} (priced : 0 ≤ spec.usdcPerImage)
    (answered : request.read runtime spec (request.worstCaseOf spec) reply =
      some (billed, completion)) :
    billed ≤ request.worstCaseOf spec := by
  cases request with
  | chat =>
    simp only [InferenceRequest.read, Option.bind_eq_bind, Option.bind_eq_some_iff] at answered
    obtain ⟨_, _, _, _, result⟩ := answered
    cases result
    exact min_le_right _ _
  | image body =>
    simp only [InferenceRequest.read, Option.bind_eq_bind, Option.bind_eq_some_iff] at answered
    obtain ⟨_, _, refs, _, result⟩ := answered
    cases result
    -- nothing is kept of a reply to a request for no images
    have kept : ((refs.take body.n.toNat).length : Int) ≤ max body.n 0 := by
      rw [length_take]
      omega
    have cut : imageCost spec (max body.n 0) = imageCost spec body.n := by
      unfold imageCost
      rw [max_eq_left (le_max_right body.n 0)]
    exact (imageCost_mono priced kept).trans_eq cut

theorem InferenceRequest.work_le {met : Circumstances} {done : Work}
    (priced : 0 ≤ spec.usdcPerImage)
    (worked : request.work runtime spec (request.worstCaseOf spec) met = .ok done) :
    met.node = some done.providerId ∧ done.billed ≤ request.worstCaseOf spec := by
  unfold InferenceRequest.work at worked
  cases node : met.node with
  | none => rw [node] at worked; cases worked
  | some _ =>
    rw [node] at worked
    dsimp only at worked
    split at worked
    · cases worked
    · split at worked
      · cases worked
      · rename_i answered
        cases worked
        exact ⟨rfl, request.read_le priced answered⟩

theorem resolve_charges {settings : Settings} {developerId : Uuid} {met : Circumstances}
    {session : Session} {raw : ℚ} {work : Except HttpError Work} (clean : session.flushed = []) :
    charges (resolve settings developerId met session (quantizeUsdc raw)
        work).2.own = charges session.own ∨
      ∃ done, work = .ok done ∧ charges (resolve settings developerId met session (quantizeUsdc raw)
            work).2.own =
          charges session.own ++ chargeFor settings developerId done.providerId done.billed := by
  have arrived : (session.meanwhile settings developerId met.dispatching).flushed = [] := by
    rw [Session.meanwhile_flushed, clean]
  cases work with
  | error =>
    unfold resolve
    rw [releaseUnsettled_own, arrived]
    simp
  | ok done =>
    have settlement := @settleReservation_cases settings developerId
      (session.meanwhile settings developerId met.dispatching) met.race
      done.providerId raw done.billed
    rcases settlement with ⟨-, -, _, _, settled, afterOwn, afterFlushed⟩ |
      ⟨-, paid, after, settled, afterOwn, afterFlushed⟩
    · left
      unfold resolve
      dsimp only
      rw [settled]
      rw [releaseUnsettled_own, afterOwn, afterFlushed, arrived]
      simp
    · right
      unfold resolve
      dsimp only
      rw [settled]
      dsimp only [Session.commit]
      rw [afterOwn, afterFlushed, arrived, ← chargeFor]
      simp

section

variable {settings : Settings} {stream : ChatStream} {others own : Ledger}

def StreamCharge (settings : Settings) (stream : ChatStream) (rows : Ledger) : Prop :=
  rows = [] ∨ ∃ actual ≤ stream.worstCase,
    rows = chargeFor settings stream.developerId stream.providerId actual

theorem StreamCharge.bounded {rows : Ledger} (charge : StreamCharge settings stream rows) :
    ∀ group ∈ rows, BoundedCharge stream.developerId stream.providerId stream.worstCase group := by
  intro _ mem
  rcases charge with rfl | ⟨_, within, rfl⟩
  · cases mem
  · exact boundedCharge_of_le within mem

theorem finalisePartial_charges (books : Accounting) : ∃ rows, StreamCharge settings stream rows ∧
      charges (finalisePartial settings stream others own
        (stream.partialBillable books)) = charges own ++ rows := by
  unfold finalisePartial
  split
  · rename_i pos
    rcases @streamSettle_cases settings stream others own
      (stream.partialBillable books) with ⟨raised, -⟩ | ⟨settled, -⟩
    · exact ⟨[], .inl rfl, by rw [raised]; simp⟩
    · refine ⟨_, .inr ⟨_, ChatStream.partialBillable_le pos, rfl⟩, ?_⟩
      rw [settled]
      simp
  · refine ⟨[], .inl rfl, ?_⟩
    rw [streamRelease_eq]
    simp

theorem resolveInBody_charges {met : Surroundings} {disconnect : Option Suspension}
    (books : Accounting) {resolution : Option Ledger}
    (own : ∀ rows, resolution = some rows → StreamCharge settings stream (charges rows)) :
    ∃ first second, StreamCharge settings stream first ∧ StreamCharge settings stream second ∧
      charges (resolveInBody settings stream met disconnect books resolution) = first ++ second ∧
      (disconnect ≠ some .afterCommit → second = []) := by
  obtain ⟨rows, charge, finalised⟩ := @finalisePartial_charges settings
    stream met.atFinaliser [] books
  cases resolution with
  | none => exact ⟨rows, [], charge, .inl rfl, by simpa [resolveInBody]
      using finalised, fun _ => rfl⟩
  | some committed =>
    by_cases before : disconnect = some .beforeCommit
    · exact ⟨rows, [], charge, .inl rfl, by
        simpa [resolveInBody, before] using finalised, fun _ => rfl⟩
    by_cases after : disconnect = some .afterCommit
    · obtain ⟨again, recharge, twice⟩ := @finalisePartial_charges settings
        stream met.atFinaliser committed books
      exact ⟨charges committed, again, own committed rfl, recharge, by
        simpa [resolveInBody, after] using twice,
        fun other => absurd after other⟩
    · exact ⟨charges committed, [], own committed rfl, .inl rfl, by
        simp [resolveInBody, before, after], fun _ => rfl⟩

theorem chatStreamBody_charges (parse : String → Option Int)
    (met : Surroundings) (disconnect : Option Suspension) :
    ∃ first second, StreamCharge settings stream first ∧ StreamCharge settings stream second ∧
      charges (chatStreamBody settings stream parse met disconnect) = first ++ second ∧
      (disconnect ≠ some .afterCommit → second = []) := by
  have finalised (books : Accounting) : ∃ first second, StreamCharge settings stream first ∧
        StreamCharge settings stream second ∧
        charges (finalisePartial settings stream met.atFinaliser []
          (stream.partialBillable books)) = first ++ second ∧
        (disconnect ≠ some .afterCommit → second = []) := by
    obtain ⟨rows, charge, finalised⟩ := @finalisePartial_charges settings
      stream met.atFinaliser [] books
    exact ⟨rows, [], charge, .inl rfl, by simpa using finalised,
      fun _ => rfl⟩
  have released (books : Accounting) := @resolveInBody_charges settings stream met disconnect books
      (streamRelease stream met.atBody []) (by
        intro _ released
        rw [streamRelease_eq] at released
        cases released
        exact .inl (by simp))
  unfold chatStreamBody
  split
  · exact ⟨[], [], .inl rfl, .inl rfl, rfl, fun _ => rfl⟩
  split
  · exact finalised .start
  split
  · exact finalised _
  · exact finalised _
  · exact released _
  · exact released _
  · rename_i books _
    apply resolveInBody_charges
    intro _ settled
    rcases @streamSettle_cases settings stream met.atBody []
      (stream.billable books) with ⟨raised, -⟩ | ⟨committed, -⟩
    · rw [raised] at settled
      cases settled
    · rw [committed] at settled
      cases settled
      exact .inr ⟨_, stream.billable_le books, by simp⟩

end

/-- Whatever a model costs and a node reports, every charge is bounded, and a
unary request is charged once at most. -/
theorem inference_charge_bounded (settings : Settings) :
    (∀ (runtime : Runtime) (developerId : Uuid) (request : InferenceRequest)
      (spec : ModelSpec) (met : Circumstances) (session : Session),
      0 ≤ spec.usdcPerImage → session.flushed = [] →
      ∃ charged, charges (resolve settings developerId met session
            (heldAmount (request.worstCaseOf spec))
            (request.work runtime spec (request.worstCaseOf spec)
              met)).2.own = charges session.own ++ charged ∧
        charged.length ≤ 1 ∧
        ∀ group ∈ charged, ∃ providerId, met.node = some providerId ∧
          BoundedCharge developerId providerId (request.worstCaseOf spec) group) ∧
    ∀ (stream : ChatStream) (parse : String → Option Int)
      (met : Surroundings) (disconnect : Option Suspension),
      (∀ group ∈ charges (chatStreamBody settings stream parse met disconnect),
        BoundedCharge stream.developerId stream.providerId stream.worstCase group) ∧
      (disconnect ≠ some .afterCommit → (charges (chatStreamBody settings stream parse met
          disconnect)).length ≤ 1) := by
  constructor
  · intro runtime developerId request spec met session priced clean
    obtain ⟨raw, quantised⟩ := exists_quantizeUsdc_eq_heldAmount (request.worstCaseOf spec)
    rw [quantised]
    rcases @resolve_charges settings developerId met session raw
      (request.work runtime spec (request.worstCaseOf spec) met) clean with
      nothing | ⟨done, worked, charged⟩
    · refine ⟨[], by rw [nothing, append_nil], Nat.zero_le 1, ?_⟩
      intro _ member
      cases member
    · obtain ⟨node, within⟩ := request.work_le priced worked
      exact ⟨_, charged, length_chargeFor_le _ _ _ _, fun group member =>
        ⟨done.providerId, node, boundedCharge_of_le within member⟩⟩
  · intro stream parse met disconnect
    obtain ⟨_, _, firstCharge, secondCharge, charged, once⟩ :=
      @chatStreamBody_charges settings stream parse met disconnect
    rw [charged]
    constructor
    · intro group member
      rcases mem_append.mp member with member | member
      · exact firstCharge.bounded group member
      · exact secondCharge.bounded group member
    · intro settled
      rw [once settled, append_nil]
      rcases firstCharge with rfl | ⟨_, -, rfl⟩
      · exact Nat.zero_le 1
      · exact length_chargeFor_le _ _ _ _

theorem inference_charge_bounded_shortChat : ∃ charged,
      charges (resolve Settings.default 7 leftAlone (leftAlone.session Settings.default 7)
          (heldAmount (shortChat.worstCaseOf (.chat "llama-3.1-8b" (5 / 100) (8 / 100))))
          (shortChat.work plainRuntime (.chat "llama-3.1-8b" (5 / 100) (8 / 100))
            (shortChat.worstCaseOf (.chat "llama-3.1-8b" (5 / 100) (8 / 100)))
            leftAlone)).2.own = charged ∧
      charged.length = 1 ∧
      ∀ group ∈ charged, ∃ providerId, some 9 = some providerId ∧
        BoundedCharge 7 providerId (32778 / 10 ^ 8) group := by
  have worst : shortChat.worstCaseOf
      (.chat "llama-3.1-8b" (5 / 100) (8 / 100)) = 32778 / 10 ^ 8 := by
    decide +kernel
  obtain ⟨charged, rows, -, bounded⟩ :=
    (inference_charge_bounded Settings.default).1 plainRuntime 7 shortChat
      (.chat "llama-3.1-8b" (5 / 100) (8 / 100)) leftAlone
      (leftAlone.session Settings.default 7) (by decide +kernel) rfl
  rw [worst] at rows bounded ⊢
  refine ⟨charged, rows, ?_, bounded⟩
  have once : (charges (resolve Settings.default 7 leftAlone
      (leftAlone.session Settings.default 7) (heldAmount (32778 / 10 ^ 8))
      (shortChat.work plainRuntime (.chat "llama-3.1-8b" (5 / 100) (8 / 100)) (32778 / 10 ^ 8)
        leftAlone)).2.own).length = 1 := by
    decide +kernel
  rw [rows] at once
  exact once

end Gridix

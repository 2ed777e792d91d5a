import Gridix.Jobs.Runs

/-!
# What the job path posts

A group that carries a job's id moves money of the job's developer, or the
stake of a provider.
-/

namespace Gridix

open List Serial

inductive JobGroup (terms : JobTerms) : LedgerGroup → Prop where
  | hold (amount : Int) : JobGroup terms ⟨transferPostings .developer (some terms.developerId)
        .escrow (some terms.developerId) amount, .escrowHold, some terms.id,
        none⟩
  | giveBack (amount : Int) : JobGroup terms ⟨transferPostings .escrow (some terms.developerId)
        .developer (some terms.developerId) amount, .refund, some terms.id,
        none⟩
  | release (providerId : Uuid) (cost fee : Int) (positive : 0 < cost)
      (feeNonneg : 0 ≤ fee) (feeLe : fee ≤ cost) :
      JobGroup terms ⟨settlePostings terms.developerId providerId cost fee,
        .settle, some terms.id, none⟩
  | dataCharge (cost : Int) (positive : 0 < cost) :
      JobGroup terms ⟨transferPostings .developer (some terms.developerId)
        .protocol none cost, .dataCost, some terms.id, none⟩
  | stakeHold (providerId : Uuid) (amount : Int) :
      JobGroup terms ⟨transferPostings .stake (some providerId) .disputed
        (some providerId) amount, .slashHold, some terms.id, none⟩

section

variable {settings : Settings} {job : Job} {bytes : Int}
  {group : LedgerGroup}

theorem mem_refundRows_group {amount : Int}
    (mem : group ∈ refundRows job.id job.developerId amount) :
    JobGroup job.toJobTerms group := by
  unfold refundRows at mem
  split_ifs at mem
  · cases mem
  · rw [mem_singleton.mp mem]
    exact .giveBack amount

theorem settleJob_groups {winner : Option Uuid} {rows : Ledger} {costFinal : Option Int}
    (paid : job.status = .completed → winner.isSome = true)
    (ok : settleJob settings job winner bytes = .ok (rows, costFinal)) :
    ∀ group ∈ rows, JobGroup job.toJobTerms group := by
  by_cases billed : job.kind = .canary
  · rw [settleJob_unbilled (Or.inl billed)] at ok
    cases ok
    nofun
  · cases amount : job.escrowAmount with
    | none =>
      rw [settleJob_unbilled (Or.inr amount)] at ok
      cases ok
      nofun
    | some escrow =>
      by_cases completed : job.status = .completed
      · obtain ⟨providerId, rfl⟩ := Option.isSome_iff_exists.mp (paid completed)
        rw [settleJob_completed billed amount completed] at ok
        cases ok
        intro _ mem
        have cost := settledCost_nonneg settings job (job.escrowNonneg escrow amount)
        simp only [completionRows, mem_append] at mem
        rcases mem with (released | refunded) | charged
        · unfold releaseRows at released
          split_ifs at released with small
          · cases released
          · rw [mem_singleton.mp released]
            exact .release providerId _ _ (not_le.mp small)
              (protocolFee_nonneg settings cost) (protocolFee_le settings cost)
        · exact mem_refundRows_group refunded
        · unfold dataRows at charged
          split_ifs at charged with pos
          · rw [mem_singleton.mp charged]
            exact .dataCharge _ pos
          · cases charged
      · rw [settleJob_refunded billed amount completed] at ok
        cases ok
        intro _ mem
        exact mem_refundRows_group mem

theorem Resolved.groups {attempts : List JobAttempt} {now : Int} {record moved : JobRecord}
    {posted : Ledger} (resolved : Resolved settings attempts now bytes record moved posted) :
    ∀ group ∈ posted, JobGroup record.job.toJobTerms group := by
  obtain ⟨_, decision, holds, settlement⟩ := resolved
  obtain ⟨terms, _, winner⟩ := decideJob_ok decision
  intro group mem
  rcases mem_append.mp mem with early | late
  · obtain ⟨providerId, amount, rfl⟩ := holds group early
    exact .stakeHold providerId amount
  · rw [← terms]
    exact settleJob_groups winner settlement group late

end

def PostsFor (terms : JobTerms) (books moved : Books) : Prop :=
  ∃ posted, moved.ledger = books.ledger ++ posted ∧ ∀ group ∈ posted, JobGroup terms group

theorem PostsFor.nothing (terms : JobTerms) {books moved : Books}
    (ledger : moved.ledger = books.ledger) : PostsFor terms books moved :=
  ⟨[], by rw [ledger, append_nil], nofun⟩

section

variable {settings : Settings} {record moved : JobRecord}
  {books movedBooks : Books}

theorem maybeFinalize_groups {order : RowOrder} {clock : Clock}
    (ok : maybeFinalize settings order clock record books = .ok (moved, movedBooks)) :
    PostsFor record.job.toJobTerms books movedBooks := by
  rcases maybeFinalize_ok ok with ⟨rfl, rfl, _⟩ | ⟨_, _, posted, ledger, resolved⟩
  · exact .nothing _ rfl
  · exact ⟨posted, ledger, resolved.groups⟩

theorem JobEvent.perform_groups {event : JobEvent}
    (ok : event.perform settings record books = .ok (moved, movedBooks)) :
    PostsFor record.job.toJobTerms books movedBooks := by
  rcases JobEvent.perform_stages ok with
    ⟨rfl, ledger⟩ | ⟨_, ledger⟩ | ⟨_, _, middle, ready, finalised⟩
  · exact .nothing _ ledger
  · exact .nothing _ ledger
  · rw [← ready.terms]
    exact maybeFinalize_groups finalised

end

def System.Keeps (system moved : System) : Prop :=
  ∀ jobId record, system.record? jobId = some record → ∃ later, moved.record? jobId = some later ∧
      later.job.toJobTerms = record.job.toJobTerms

theorem System.Keeps.refl (system : System) : system.Keeps system :=
  fun _ record found => ⟨record, found, rfl⟩

theorem System.Keeps.trans {system middle moved : System}
    (first : system.Keeps middle) (second : middle.Keeps moved) :
    system.Keeps moved := by
  intro jobId record found
  obtain ⟨between, here, terms⟩ := first jobId record found
  obtain ⟨later, after, same⟩ := second jobId between here
  exact ⟨later, after, same.trans terms⟩

def System.Accounts (system : System) (developer : Uuid) (group : LedgerGroup) : Prop :=
  ∃ jobId record, system.record? jobId = some record ∧ record.job.developerId = developer ∧
    JobGroup record.job.toJobTerms group

theorem System.Accounts.mono {system moved : System} {developer : Uuid}
    {group : LedgerGroup} (accounts : system.Accounts developer group)
    (keeps : system.Keeps moved) : moved.Accounts developer group := by
  obtain ⟨jobId, record, found, owner, posted⟩ := accounts
  obtain ⟨later, after, terms⟩ := keeps jobId record found
  refine ⟨jobId, later, after, ?_, ?_⟩
  · rw [← owner, congrArg JobTerms.developerId terms]
  · rw [terms]
    exact posted

def Operation.Concerns (system : System) (developer : Uuid) : Operation → Prop
  | .submitJob _ developerId _ _ _ _ _ => developerId = developer
  | .assignProviders jobId _ _ | .heartbeat _ jobId _
  | .reportStatus _ jobId _ | .submitResult _ _ _ jobId _ =>
    ∃ record, system.record? jobId = some record ∧ record.job.developerId = developer
  | .reapExpiredAttempts _ _ now _ =>
    ∃ jobId record, system.record? jobId = some record ∧ hasLapsedAttempt now record = true ∧
      record.job.developerId = developer
  | .createCanaryJob _ _ _ _ | .reapExpiredLeases _ _
  | .drainUnreachableProviders _ _ | .elsewhere _ => False

def System.Grows (concerned : Uuid → Prop) (system moved : System) : Prop :=
  ∃ posted, moved.books.ledger = system.books.ledger ++ posted ∧
    ∀ group ∈ posted, ∃ developer, concerned developer ∧ moved.Accounts developer group

section

variable {settings : Settings} {system moved : System}
  {concerned : Uuid → Prop} {order : RowOrder}

theorem System.Grows.nothing (ledger : moved.books.ledger = system.books.ledger) :
    system.Grows concerned moved :=
  ⟨[], by rw [ledger, append_nil], nofun⟩

theorem System.Grows.trans {middle : System} (first : system.Grows concerned middle)
    (second : middle.Grows concerned moved) (keeps : middle.Keeps moved) :
    system.Grows concerned moved := by
  obtain ⟨early, firstLedger, earlier⟩ := first
  obtain ⟨late, secondLedger, later⟩ := second
  refine ⟨early ++ late, ?_, ?_⟩
  · rw [secondLedger, firstLedger, append_assoc]
  · intro group mem
    rcases mem_append.mp mem with old | new
    · obtain ⟨developer, about, accounts⟩ := earlier group old
      exact ⟨developer, about, accounts.mono keeps⟩
    · exact later group new

theorem Projects.keeps {event : JobRecord → JobEvent}
    (projects : Projects settings event system moved) :
    system.Keeps moved := by
  intro jobId record found
  obtain ⟨later, after, _, _, _, code, _⟩ := projects.follows jobId record found
  obtain ⟨_, posts⟩ := JobEvent.perform_posts code
  exact ⟨later, after, posts.terms⟩

theorem put_grows {jobId : Uuid} {target movedTarget : JobRecord}
    {books : Books} (here : system.record? jobId = some target)
    (terms : movedTarget.job.toJobTerms = target.job.toJobTerms)
    (posts : PostsFor target.job.toJobTerms system.books books)
    (about : concerned target.job.developerId) :
    system.Grows concerned (system.put movedTarget books) := by
  obtain ⟨posted, ledger, groups⟩ := posts
  refine ⟨posted, ledger, ?_⟩
  intro group mem
  have after : (system.put movedTarget books).record? jobId = some movedTarget := by
    have id : movedTarget.job.id = jobId := by rw [congrArg JobTerms.id terms, id_of_record? here]
    rw [record?_put here, if_pos id]
  refine ⟨_, about, jobId, movedTarget, after, ?_, ?_⟩
  · rw [congrArg JobTerms.developerId terms]
  · rw [terms]
    exact groups group mem

theorem onJob_grows {event : JobEvent} {jobId : Uuid}
    (ok : system.onJob jobId (event.perform settings) = .ok moved) :
    system.Grows (fun developer => ∃ record, system.record? jobId = some record ∧
        record.job.developerId = developer) moved := by
  obtain ⟨target, _, _, here, code, rfl⟩ := onJob_ok ok
  obtain ⟨_, posts⟩ := JobEvent.perform_posts code
  exact put_grows here posts.terms (JobEvent.perform_groups code) ⟨target, here, rfl⟩

theorem finalizeById_keeps {clock : Clock} {jobId : Uuid}
    (ok : finalizeById settings order clock system jobId = .ok moved) : system.Keeps moved := by
  intro other record found
  obtain ⟨later, after, visited⟩ := (finalizeById_ok ok).1 other record found
  refine ⟨later, after, ?_⟩
  by_cases here : record.job.id ∈ [jobId]
  · obtain ⟨_, _, _, code, _⟩ := visited.inside here
    obtain ⟨_, posts⟩ := maybeFinalize_posts code
    exact posts.terms
  · rw [(visited.outside here).1]

theorem finalizeById_grows {clock : Clock} {jobId : Uuid}
    (ok : finalizeById settings order clock system jobId = .ok moved)
    (about : ∀ record, system.record? jobId = some record → concerned record.job.developerId) :
    system.Grows concerned moved := by
  rcases finalizeById_cases ok with ⟨_, rfl⟩ | ⟨target, _, _, here, code, rfl⟩
  · exact .nothing rfl
  · obtain ⟨_, posts⟩ := maybeFinalize_posts code
    exact put_grows here posts.terms (maybeFinalize_groups code) (about target here)

theorem reapExpiredAttempts_grows {clock : Clock} {now : Int} {visit : List Uuid}
    (ok : reapExpiredAttempts settings order clock now visit system = .ok moved) :
    system.Grows (fun developer => ∃ jobId record, system.record? jobId = some record ∧
        hasLapsedAttempt now record = true ∧
        record.job.developerId = developer) moved := by
  let marked : System :=
    { system with
      records := system.records.map fun record =>
        if hasLapsedAttempt now record then markLapsed now record
        else record }
  have marks : system.Keeps marked := by
    intro _ record found
    refine ⟨if hasLapsedAttempt now record then markLapsed now record
      else record, ?_, ?_⟩
    · unfold System.record? at found ⊢
      rw [find?_map system.records, found]
      · rfl
      · intro _
        split_ifs <;> rfl
    · split_ifs <;> rfl
  -- each visit posts for its own job, whose terms the earlier visits kept
  have visited := @Serial.foldlM_invariant System Raised Uuid (fun reached => marked.Keeps reached ∧
      marked.Grows (fun developer => ∃ jobId record, system.record? jobId = some record ∧
          hasLapsedAttempt now record = true ∧
          record.job.developerId = developer) reached) _ _ _ _ ?_
    ⟨.refl marked, .nothing rfl⟩ ok
  · exact visited.2
  · rintro _ jobId _ mem ⟨keeps, grows⟩ visit
    have kept := finalizeById_keeps visit
    refine ⟨keeps.trans kept, grows.trans (finalizeById_grows visit ?_) kept⟩
    intro _ found
    have listed := (mem_filter.mp mem).2
    cases before : system.record? jobId with
    | none => simp [before] at listed
    | some source =>
      obtain ⟨_, after, terms⟩ := (marks.trans keeps) jobId source before
      cases found.symm.trans after
      refine ⟨jobId, source, before, by simpa [before] using listed, ?_⟩
      rw [congrArg JobTerms.developerId terms]

theorem Operation.perform_grows {operation : Operation}
    (internal : ∀ books, operation = .elsewhere books → books.ledger = [])
    (ok : operation.perform settings system = .ok moved) :
    system.Grows (fun developer => operation.Concerns system developer) moved := by
  cases operation with
  | submitJob request developerId jobId key _ _ now =>
    rcases submitJob_cases ok with rfl | ⟨unused, rfl⟩
    · exact .nothing rfl
    · refine ⟨_, rfl, ?_⟩
      intro _ mem
      refine ⟨developerId, rfl, jobId,
        ⟨newJob (request.terms settings developerId jobId key) now, []⟩,
        ?_, rfl, ?_⟩
      · rw [record?_create, unused]
        exact if_pos rfl
      · unfold escrowRows at mem
        split_ifs at mem
        · cases mem
        · rw [mem_singleton.mp mem]
          exact .hold _
  | createCanaryJob =>
    obtain ⟨_, rfl⟩ := createCanaryJob_ok ok
    exact .nothing (append_nil _)
  | assignProviders jobId candidates now =>
    exact @onJob_grows settings system moved (.assign candidates now) jobId ok
  | heartbeat providerId jobId now =>
    exact @onJob_grows settings system moved (.heartbeat providerId now) jobId ok
  | reportStatus providerId jobId now =>
    exact @onJob_grows settings system moved (.reportStatus providerId now) jobId ok
  | submitResult order clock providerId jobId request =>
    exact @onJob_grows settings system moved (.submitResult order clock providerId request) jobId ok
  | reapExpiredLeases | drainUnreachableProviders =>
    obtain ⟨_, _, same⟩ := bind_eq_ok.mp ok
    cases same
    exact .nothing rfl
  | reapExpiredAttempts => exact reapExpiredAttempts_grows ok
  | elsewhere books =>
    cases ok
    apply System.Grows.nothing
    simp [internal books rfl]

end

def System.ids (system : System) : List Uuid := system.records.map fun record => record.job.id

section

variable {settings : Settings} {system moved : System}

theorem not_mem_ids {jobId : Uuid} (absent : system.record? jobId = none) : jobId ∉ system.ids := by
  intro mem
  obtain ⟨record, here, same⟩ := mem_map.mp mem
  exact List.find?_eq_none.mp absent record here (by simpa using same)

theorem record?_of_mem (unique : system.ids.Nodup) {record : JobRecord}
    (mem : record ∈ system.records) :
    system.record? record.job.id = some record := by
  cases found : system.record? record.job.id with
  | none => exact (not_mem_ids found (mem_map_of_mem mem)).elim
  | some =>
    have same := inj_on_of_nodup_map unique (mem_of_find?_eq_some found) mem (id_of_record? found)
    rw [same]

theorem put_ids (record : JobRecord) (books : Books) :
    (system.put record books).ids = system.ids := by
  unfold System.ids System.put
  rw [map_map]
  apply map_congr_left
  intro _ _
  rw [Function.comp_apply]
  split_ifs with same
  · exact same.symm
  · rfl

theorem reclaimWhere_ids {now transitioned : Int} {selected : Job → Bool}
    (ok : reclaimWhere settings now transitioned selected system = .ok moved) :
    moved.ids = system.ids := by
  obtain ⟨_, visited, same⟩ := bind_eq_ok.mp ok
  cases same
  unfold System.ids
  have related := forall₂_of_mapM visited
  clear ok visited
  generalize system.records = sources at related ⊢
  induction related with
  | nil => rfl
  | cons visit _ ih =>
    rw [map_cons, map_cons, ih]
    split_ifs at visit
    · rw [congrArg JobTerms.id (reclaimJob_ok visit).1]
    · cases visit
      rfl

theorem onJob_ids {jobId : Uuid} {event : JobRecord → Books → Except Raised (JobRecord × Books)}
    (ok : system.onJob jobId event = .ok moved) :
    moved.ids = system.ids := by
  obtain ⟨_, _, _, _, _, rfl⟩ := onJob_ok ok
  exact put_ids _ _

theorem reapExpiredAttempts_ids {order : RowOrder} {clock : Clock} {now : Int} {visit : List Uuid}
    (ok : reapExpiredAttempts settings order clock now visit system = .ok moved) :
    moved.ids = system.ids := by
  refine @Serial.foldlM_invariant System Raised Uuid
    (fun reached => reached.ids = system.ids) _ _ _ _ ?_ ?_ ok
  · intro _ _ _ _ same visits
    rcases finalizeById_cases visits with ⟨_, rfl⟩ | ⟨_, _, _, _, _, rfl⟩
    · exact same
    · exact (put_ids _ _).trans same
  · unfold System.ids
    rw [map_map]
    apply map_congr_left
    intro _ _
    rw [Function.comp_apply]
    split_ifs <;> rfl

theorem Operation.perform_ids {operation : Operation}
    (ok : operation.perform settings system = .ok moved) :
    moved.ids = system.ids ∨ ∃ jobId, system.record? jobId = none ∧
      moved.ids = system.ids ++ [jobId] := by
  cases operation with
  | submitJob _ _ jobId =>
    rcases submitJob_cases ok with rfl | ⟨unused, rfl⟩
    · exact Or.inl rfl
    · exact Or.inr ⟨jobId, unused, map_append⟩
  | createCanaryJob _ jobId =>
    obtain ⟨unused, rfl⟩ := createCanaryJob_ok ok
    exact Or.inr ⟨jobId, unused, map_append⟩
  | assignProviders | heartbeat | reportStatus | submitResult => exact Or.inl (onJob_ids ok)
  | reapExpiredLeases | drainUnreachableProviders => exact Or.inl (reclaimWhere_ids ok)
  | reapExpiredAttempts => exact Or.inl (reapExpiredAttempts_ids ok)
  | elsewhere =>
    cases ok
    exact Or.inl rfl

theorem Operation.step_ids_nodup (operation : Operation) (unique : system.ids.Nodup) :
    (operation.step settings system).ids.Nodup := by
  rcases transact_cases (operation.perform settings) system with ok | unchanged
  · rcases Operation.perform_ids ok with same | ⟨_, absent, grown⟩
    · rw [Operation.step, same]
      exact unique
    · rw [Operation.step, grown, nodup_append]
      refine ⟨unique, nodup_singleton _, ?_⟩
      rintro _ mem _ single rfl
      rw [mem_singleton.mp single] at mem
      exact not_mem_ids absent mem
  · rw [Operation.step, unchanged]
    exact unique

end

end Gridix

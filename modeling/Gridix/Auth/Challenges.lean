import Gridix.Auth.SignIn

/-!
# One session per challenge

Whoever spends a challenge holds its row until the transaction ends.
-/

namespace Gridix.SignIn

open ReadCommitted List

variable {wallets : Wallets} {settings : SignInSettings}

/-- The challenge of the key was spent in time, by a signature of the wallet
it was issued to, and the key is of the developer with that wallet. -/
def Earned (wallets : Wallets) (db : Db) (key : SessionKey) : Prop :=
  ∃ nonce ∈ db.nonces, nonce.id = key.challenge ∧
    (∃ used, nonce.usedAt = some used ∧ used < nonce.expiresAt) ∧
    wallets.recoverSigner nonce.message key.signature = some nonce.address ∧
    ∃ developer ∈ db.developers, developer.id = key.developerId ∧
      developer.walletAddress = some nonce.address

/-- Rows are unique, a challenge has one key, and each key was earned. -/
structure Coherent (wallets : Wallets) (db : Db) : Prop where
  nonces : (db.nonces.map AuthNonce.id).Nodup
  developers : db.developers.Pairwise fun left right =>
    (developerRows left).Disjoint (developerRows right)
  single : (db.keys.map SessionKey.challenge).Nodup
  earned : ∀ key ∈ db.keys, Earned wallets db key

section

variable {db : Db}

theorem not_taken_challenge {id : Uuid} (free : ¬db.taken (.challenge id) = true) :
    ∃ nonce ∈ db.nonces, nonce.id = id ∧ nonce.usedAt = none := by
  simpa [Db.taken] using free

theorem Coherent.nonce_ext (coherent : Coherent wallets db) {left right : AuthNonce}
    (leftStored : left ∈ db.nonces) (rightStored : right ∈ db.nonces) (same : left.id = right.id) :
    left = right :=
  inj_on_of_nodup_map coherent.nonces leftStored rightStored same

variable {row : Row}

theorem taken_issue {challenge : AuthNonce} (taken : (db.issue challenge).taken row = true) :
    db.taken row = true ∨ row ∈ nonceRows challenge := by
  cases row with
  | challenge =>
    refine .inl ?_
    simp only [Db.taken, Db.issue, any_append, Bool.not_or, Bool.and_eq_true] at taken ⊢
    exact taken.1
  | nonceId | nonce => simpa [Db.taken, Db.issue] using taken
  | _ => exact .inl taken

theorem nonceRows_spent (id : Uuid) (now : Int) (nonce : AuthNonce) :
    nonceRows (nonce.spent id now) = nonceRows nonce := by
  unfold AuthNonce.spent
  split_ifs <;> rfl

theorem taken_spend {attempt : Attempt} (taken : (attempt.spend db).taken row = true) :
    db.taken row = true ∨ row = .challenge attempt.challenge.id := by
  cases row with
  | challenge id =>
    by_cases same : id = attempt.challenge.id
    · exact .inr (congrArg _ same)
    · refine .inl ?_
      simp only [Db.taken, Attempt.spend, Bool.not_eq_true',
        any_map, any_eq_false, Function.comp_apply] at taken ⊢
      intro nonce stored unused
      apply taken nonce stored
      have other : nonce.id ≠ attempt.challenge.id := by
        intro equal
        simp only [Bool.and_eq_true, beq_iff_eq] at unused
        exact same (unused.1.symm.trans equal)
      rwa [AuthNonce.spent, if_neg fun both => other both.1]
  | nonceId | nonce =>
    refine .inl ?_
    simpa only [Db.taken, Attempt.spend, any_map, Function.comp_def, nonceRows_spent] using taken
  | _ => exact .inl taken

theorem taken_spend_of_taken (attempt : Attempt)
    (taken : db.taken row = true) : (attempt.spend db).taken row = true := by
  cases row with
  | challenge =>
    simp only [Db.taken, Attempt.spend, Bool.not_eq_true', any_map,
      any_eq_false, Function.comp_apply] at taken ⊢
    intro nonce stored unused
    apply taken nonce stored
    unfold AuthNonce.spent at unused
    split_ifs at unused
    · simp at unused
    · exact unused
  | nonceId | nonce =>
    simpa only [Db.taken, Attempt.spend, any_map, Function.comp_def, nonceRows_spent] using taken
  | _ => exact taken

theorem taken_register {developer : Developer} (taken : (db.register developer).taken row = true) :
    db.taken row = true ∨ row ∈ developerRows developer := by
  cases row with
  | developerId | wallet => simpa [Db.taken, Db.register] using taken
  | _ => exact .inl taken

theorem taken_mint {key : SessionKey} (taken : (db.mint key).taken row = true) :
    db.taken row = true ∨ row ∈ keyRows key := by
  cases row with
  | keyHash => simpa [Db.taken, Db.mint] using taken
  | _ => exact .inl taken

theorem taken_resolved {resolution : Resolution wallets}
    (taken : (resolution.resolved db).taken row = true) :
    db.taken row = true ∨ row ∈ resolution.rows := by
  have spent (taken : (resolution.spend db).taken row = true) :
      db.taken row = true ∨ row ∈ resolution.rows := by
    rcases taken_spend taken with old | rfl
    · exact .inl old
    · exact .inr mem_cons_self
  unfold Resolution.resolved at taken
  split_ifs at taken with created
  · rcases taken_register taken with old | _
    · exact spent old
    · refine .inr (mem_cons_of_mem _ ?_)
      rwa [if_pos created]
  · exact spent taken

theorem taken_resolved_of_taken {resolution : Resolution wallets} (taken : db.taken row = true) :
    (resolution.resolved db).taken row = true := by
  have spent := taken_spend_of_taken resolution.toAttempt taken
  unfold Resolution.resolved
  split_ifs
  · cases row with
    | developerId | wallet =>
      simp only [Db.taken, Db.register, any_append, Bool.or_eq_true] at spent ⊢
      exact .inl spent
    | _ => exact spent
  · exact spent

theorem taken_effect {point : Point wallets} (commits : point.commits = true)
    (taken : (point.effect settings db).taken row = true) :
    db.taken row = true ∨ row ∈ point.claimed settings := by
  cases point with
  | issueCommit => exact taken_issue taken
  | commit =>
    rcases taken_mint taken with old | new
    · rcases taken_resolved old with older | spent
      · exact .inl older
      · exact .inr (mem_append_left _ spent)
    · exact .inr (mem_append_right _ new)
  | _ => cases commits

structure Keeps (before after : Db) : Prop where
  spent : ∀ nonce ∈ before.nonces, nonce.usedAt ≠ none → nonce ∈ after.nonces
  listed : ∀ challenge, before.Lists challenge → after.Lists challenge
  developers : ∀ developer ∈ before.developers, developer ∈ after.developers

theorem keeps_issue (db : Db) (challenge : AuthNonce) : Keeps db (db.issue challenge) where
  spent := fun _ mem _ => mem_append_left _ mem
  listed := fun _ ⟨usedAt, mem⟩ =>
    ⟨usedAt, mem_append_left _ mem⟩
  developers := fun _ mem => mem

theorem keeps_spend (attempt : Attempt) (db : Db) : Keeps db (attempt.spend db) where
  spent := by
    intro nonce mem used
    refine mem_map.mpr ⟨nonce, mem, ?_⟩
    exact if_neg fun both => used both.2
  listed := by
    rintro _ ⟨_, mem⟩
    have mapped := mem_map_of_mem
      (f := AuthNonce.spent attempt.challenge.id attempt.request.now) mem
    unfold AuthNonce.spent at mapped
    split_ifs at mapped <;> exact ⟨_, mapped⟩
  developers := fun _ mem => mem

theorem keeps_effect {point : Point wallets} (commits : point.commits = true)
    (db : Db) : Keeps db (point.effect settings db) := by
  cases point with
  | issueCommit challenge => exact keeps_issue db challenge
  | commit resolution =>
    have kept : Keeps db (resolution.resolved db) := by
      have kept := keeps_spend resolution.toAttempt db
      unfold Resolution.resolved
      split_ifs
      · exact ⟨kept.spent, kept.listed, fun developer mem =>
          mem_append_left _ (kept.developers developer mem)⟩
      · exact kept
    exact ⟨kept.spent, kept.listed, kept.developers⟩
  | _ => cases commits

theorem Earned.keeps {after : Db} {key : SessionKey}
    (earned : Earned wallets db key) (kept : Keeps db after) :
    Earned wallets after key := by
  obtain ⟨nonce, stored, id, ⟨used, spent, inTime⟩, signed, developer,
    known, owner, wallet⟩ := earned
  refine ⟨nonce, kept.spent nonce stored ?_, id, ⟨used, spent, inTime⟩,
    signed, developer, kept.developers developer known, owner, wallet⟩
  rw [spent]
  exact Option.some_ne_none used

theorem Coherent.issue {challenge : AuthNonce} (coherent : Coherent wallets db)
    (free : ∀ row ∈ nonceRows challenge, ¬db.taken row = true) :
    Coherent wallets (db.issue challenge) where
  nonces := by
    have fresh : challenge.id ∉ db.nonces.map AuthNonce.id := by
      intro mem
      obtain ⟨nonce, stored, same⟩ := mem_map.mp mem
      apply free (.nonceId challenge.id) mem_cons_self
      simp only [Db.taken, any_eq_true, decide_eq_true_eq]
      exact ⟨nonce, stored, same ▸ mem_cons_self⟩
    simp only [Db.issue, map_append]
    refine nodup_append.mpr ⟨coherent.nonces, nodup_singleton _, ?_⟩
    intro _ old _ mem same
    rw [same, mem_singleton.mp mem] at old
    exact fresh old
  developers := coherent.developers
  single := coherent.single
  earned := fun key mem =>
    (coherent.earned key mem).keeps (keeps_issue db challenge)

theorem Attempt.spend_ids (attempt : Attempt) (db : Db) :
    (attempt.spend db).nonces.map AuthNonce.id = db.nonces.map AuthNonce.id := by
  simp only [Attempt.spend, map_map]
  apply map_congr_left
  intro _ _
  simp only [Function.comp_apply, AuthNonce.spent]
  split_ifs <;> rfl

section

variable {resolution : Resolution wallets}

theorem Resolution.resolved_nonces (resolution : Resolution wallets) (db : Db) :
    (resolution.resolved db).nonces = (resolution.spend db).nonces := by
  unfold Resolution.resolved
  split_ifs <;> rfl

theorem Resolution.resolved_keys (resolution : Resolution wallets)
    (db : Db) : (resolution.resolved db).keys = db.keys := by
  unfold Resolution.resolved
  split_ifs <;> rfl

theorem Resolution.Stands.developer_mem (stands : resolution.Stands db) :
    resolution.developer ∈ (resolution.resolved db).developers := by
  unfold Resolution.resolved
  split_ifs with created
  · exact mem_append_right _ (mem_singleton.mpr rfl)
  · exact stands.stored (Bool.eq_false_iff.mpr created)

theorem Coherent.unspent {challenge : AuthNonce} (coherent : Coherent wallets db)
    (listed : db.Lists challenge) (free : ¬db.taken (.challenge challenge.id) = true) :
    { challenge with usedAt := none } ∈ db.nonces := by
  obtain ⟨usedAt, stored⟩ := listed
  obtain ⟨_, unspent, same, unused⟩ := not_taken_challenge free
  have equal := coherent.nonce_ext unspent stored same
  rw [equal] at unused
  change usedAt = none at unused
  rwa [unused] at stored

theorem Coherent.unminted {id : Uuid} (coherent : Coherent wallets db)
    (free : ¬db.taken (.challenge id) = true) :
    id ∉ db.keys.map SessionKey.challenge := by
  intro mem
  obtain ⟨key, minted, rfl⟩ := mem_map.mp mem
  obtain ⟨_, stored, same, ⟨_, usedAt, _⟩, _⟩ := coherent.earned key minted
  obtain ⟨_, alsoStored, alsoSame, unused⟩ := not_taken_challenge free
  rw [coherent.nonce_ext stored alsoStored (same.trans alsoSame.symm), unused] at usedAt
  cases usedAt

theorem Coherent.signIn (coherent : Coherent wallets db)
    (free : ∀ row ∈ resolution.rows, ¬db.taken row = true) (listed : db.Lists resolution.challenge)
    (stands : resolution.Stands db) :
    Coherent wallets (resolution.committed settings db) where
  nonces := by
    change ((resolution.resolved db).nonces.map AuthNonce.id).Nodup
    rw [resolution.resolved_nonces, Attempt.spend_ids]
    exact coherent.nonces
  developers := by
    change (resolution.resolved db).developers.Pairwise _
    unfold Resolution.resolved
    split_ifs with created
    · refine pairwise_append.mpr ⟨coherent.developers, pairwise_singleton _ _, ?_⟩
      intro old stored _ singleton row inOld inNew
      rw [mem_singleton.mp singleton] at inNew
      apply free row
      · refine mem_cons_of_mem _ ?_
        rwa [if_pos created]
      · cases row with
        | developerId | wallet =>
          simp only [Db.taken, any_eq_true, decide_eq_true_eq]
          exact ⟨old, stored, inOld⟩
        | _ => simp [developerRows] at inNew
    · exact coherent.developers
  single := by
    change ((resolution.resolved db).keys ++
      [resolution.key settings]).map SessionKey.challenge |>.Nodup
    have fresh := coherent.unminted (free (.challenge resolution.challenge.id) mem_cons_self)
    rw [resolution.resolved_keys, map_append]
    refine nodup_append.mpr ⟨coherent.single, nodup_singleton _, ?_⟩
    intro _ old _ mem same
    rw [same, mem_singleton.mp mem] at old
    exact fresh old
  earned := by
    intro key mem
    have kept : Keeps db (Point.effect settings (.commit resolution) db) := keeps_effect rfl db
    rcases mem_append.mp mem with old | new
    · rw [resolution.resolved_keys] at old
      exact (coherent.earned key old).keeps kept
    · rw [mem_singleton.mp new]
      have unspent := coherent.unspent listed
        (free (.challenge resolution.challenge.id) mem_cons_self)
      refine ⟨{ resolution.challenge with
          usedAt := some resolution.request.now }, ?_, rfl,
        ⟨_, rfl, resolution.live⟩, resolution.signed,
        resolution.developer, stands.developer_mem, rfl, ?_⟩
      · change _ ∈ (resolution.resolved db).nonces
        rw [resolution.resolved_nonces]
        exact mem_map.mpr ⟨_, unspent, if_pos ⟨rfl, rfl⟩⟩
      · exact stands.wallet.trans (congrArg some resolution.bound.symm)

end

end

section

variable {db committed : Db} {conn moved : Conn Db Row (Point wallets)} {point : Point wallets}
  {world : World Db Row (Point wallets)} {index : Nat}

theorem knows_challenge (listed : ∀ challenge ∈ point.challenge, db.Lists challenge)
    (unresolved : point.resolution = none) : Knows db point where
  listed := listed
  stands := by
    rw [unresolved]
    exact fun _ none => absurd none (Option.not_mem_none _)

theorem knows_nothing (unloaded : point.challenge = none) (unresolved : point.resolution = none) :
    Knows db point := by
  refine knows_challenge ?_ unresolved
  rw [unloaded]
  exact fun _ none => absurd none (Option.not_mem_none _)

theorem failing_follows (follows : (script wallets settings).Follows db conn) (error : Raised) :
    (script wallets settings).Follows db { conn with point := .failing error } :=
  follows.drop rfl rfl (knows_nothing rfl rfl)

theorem claimed_mint (resolution : Resolution wallets) :
    (resolution.mint settings).claimed settings = resolution.rows := by
  simp [Resolution.mint, Point.claimed]

theorem executes_script (follows : (script wallets settings).Follows world.committed conn)
    (executed : Executed world index conn moved committed
      ((program wallets settings).stmt conn.point)) :
    (script wallets settings).Passes world.committed moved committed ∨
      (script wallets settings).Commits world.committed conn.point moved committed := by
  have failing := failing_follows follows
  obtain ⟨point, _, _⟩ := conn
  cases point with
  | issue =>
    refine .inl (.query follows executed rfl ?_)
    split
    · exact failing _
    · refine follows.write id rfl rfl ?_ (knows_nothing rfl rfl)
      simp [script, Point.claimed]
  | insertNonce challenge =>
    refine .inl (.insert [] (nonceRows challenge) follows executed rfl (fun _ => rfl)
      (fun _ => rfl) (fun _ => knows_nothing rfl rfl) (fun _ taken => taken) (failing _) ?_)
    rintro rfl
    refine follows.write (fun db => db.issue challenge) rfl rfl ?_ (knows_nothing rfl rfl)
    simp [script, Point.claimed]
  | issueCommit | commit =>
    obtain ⟨rfl, rfl⟩ := executed
    exact .inr ⟨rfl, congrFun (follows.pending rfl) _, _, rfl, rfl, rfl, knows_nothing rfl rfl⟩
  | verify =>
    refine .inl (.query follows executed rfl ?_)
    split
    · exact failing _
    · exact follows.write id rfl rfl (nil_subset _) (knows_nothing rfl rfl)
  | select _ _ =>
    refine .inl (.query follows executed rfl ?_)
    split
    · exact failing _
    · rename_i challenge found
      split
      · refine follows.write id rfl rfl (nil_subset _) (knows_challenge ?_ rfl)
        rintro _ ⟨⟩
        exact ⟨challenge.usedAt, mem_of_find?_eq_some found⟩
      · exact failing _
  | claimNonce =>
    obtain ⟨rfl, missed | rfl | won⟩ := executed.claim_inv
    · obtain ⟨_, rfl⟩ := missed
      exact .inl ⟨rfl, failing _⟩
    · exact .inl ⟨rfl, follows⟩
    · obtain ⟨_, selected, rfl⟩ := won
      rw [congrFun (follows.pending rfl) world.committed] at selected
      split_ifs at selected with taken
      cases selected
      refine .inl ⟨rfl, follows.lock rfl taken (by decide) rfl ?_
        (knows_challenge follows.knows.listed rfl)⟩
      intro _ mem
      exact .inl (mem_singleton.mp mem)
  | spend attempt =>
    obtain ⟨_, rfl, rfl⟩ := executed
    exact .inl ⟨rfl, follows.write attempt.spend rfl rfl (List.Subset.refl _)
      (knows_challenge follows.knows.listed rfl)⟩
  | check =>
    refine .inl (.query follows executed rfl ?_)
    split
    · split
      · exact follows.write id rfl rfl (List.Subset.refl _)
          (knows_challenge follows.knows.listed rfl)
      · exact failing _
    · exact failing _
  | findDeveloper _ =>
    refine .inl (.query follows executed rfl ?_)
    split
    · rename_i found
      refine follows.write id rfl rfl ?_ ⟨follows.knows.listed, ?_⟩
      · change (Resolution.mint settings _).claimed settings ⊆ _
        rw [claimed_mint]
        simp [script, Resolution.rows, Point.claimed]
      · rintro _ ⟨⟩
        have owner := List.find?_some found
        exact ⟨beq_iff_eq.mp owner, fun _ => mem_of_find?_eq_some found⟩
    · refine follows.write id rfl rfl ?_ (knows_challenge follows.knows.listed rfl)
      simp [script, Point.claimed]
  | insertDeveloper answer =>
    refine .inl (.insert [.challenge answer.challenge.id] (developerRows answer.register) follows
      executed rfl (fun _ => rfl) (fun _ => rfl)
      (fun _ => knows_challenge follows.knows.listed rfl)
      (fun _ => taken_spend_of_taken _) (failing _) ?_)
    rintro rfl
    refine follows.write (fun db => db.register answer.register) rfl rfl ?_
      ⟨follows.knows.listed, ?_⟩
    · change (Resolution.mint settings _).claimed settings ⊆ _
      rw [claimed_mint]
      simp [script, Resolution.rows, Point.claimed]
    · rintro _ ⟨⟩
      exact ⟨rfl, nofun⟩
  | mintKey resolution =>
    refine .inl (.insert resolution.rows (keyRows (resolution.key settings)) follows executed rfl
      (fun _ => rfl) (fun _ => rfl) (fun _ => ⟨follows.knows.listed, follows.knows.stands⟩)
      (fun _ => taken_resolved_of_taken) (failing _) ?_)
    rintro rfl
    refine follows.write (fun db => db.mint (resolution.key settings)) rfl rfl ?_
      ⟨follows.knows.listed, follows.knows.stands⟩
    simp [script, Point.claimed]
  | failing =>
    obtain ⟨rfl, rfl⟩ := executed
    exact .inl ⟨rfl, .fresh ⟨rfl, rfl, knows_nothing rfl rfl⟩⟩
  | issued | signedIn | failed | lost => exact executed.elim

end

theorem script_lawful : (script wallets settings).Lawful (program wallets settings)
    (Coherent wallets) where
  aborts := fun _ _ => ⟨rfl, rfl, knows_nothing rfl rfl⟩
  executes := executes_script
  takes := fun commits _ _ => taken_effect commits
  keeps := by
    intro point commits db other knows
    have kept : Keeps db (point.effect settings db) := keeps_effect commits db
    refine ⟨fun challenge loaded => kept.listed challenge (knows.listed challenge loaded), ?_⟩
    intro resolution resolved
    have stands := knows.stands resolution resolved
    exact ⟨stands.wallet, fun found => kept.developers _ (stands.stored found)⟩
  whole := by
    intro point commits _ coherent knows free
    cases point with
    | issueCommit => exact coherent.issue free
    | commit =>
      exact coherent.signIn (fun row mem => free row (mem_append_left _ mem))
        (knows.listed _ rfl) (knows.stands _ rfl)
    | _ => cases commits

def Point.starts : Point wallets → Bool
  | .issue _ => true
  | .verify _ => true
  | _ => false

theorem Point.starts_quiet {db : Db} {point : Point wallets} (starts : point.starts = true) :
    (script wallets settings).Quiet db point := by
  cases point with
  | issue | verify => exact ⟨rfl, rfl, knows_nothing rfl rfl⟩
  | _ => cases starts

def Db.keysFor (db : Db) (challenge : Uuid) : List SessionKey :=
  db.keys.filter fun key => key.challenge == challenge

theorem Coherent.keysFor {db : Db} (coherent : Coherent wallets db) (challenge : Uuid) :
    ∃ minted : Option SessionKey, db.keysFor challenge = minted.toList := by
  have distinct : ((db.keysFor challenge).map SessionKey.challenge).Nodup :=
    coherent.single.sublist (filter_sublist.map _)
  have shared (key : SessionKey) (mem : key ∈ db.keysFor challenge) : key.challenge = challenge :=
    beq_iff_eq.mp (mem_filter.mp mem).2
  cases listed : db.keysFor challenge with
  | nil => exact ⟨none, rfl⟩
  | cons first rest =>
    cases rest with
    | nil => exact ⟨some first, rfl⟩
    | cons second =>
      rw [listed] at distinct shared
      have same : first.challenge = second.challenge := (shared first mem_cons_self).trans
          (shared second (mem_cons_of_mem _ mem_cons_self)).symm
      simp [same] at distinct

/-- However requests race, fail and are repeated, a challenge has at most one
committed session key, and that one was earned. -/
theorem one_session_per_challenge {start world : World Db Row (Point wallets)}
    (begun : ∀ conn ∈ start.conns, ∃ point, conn = .fresh point ∧ point.starts = true)
    (coherent : Coherent wallets start.committed)
    (reached : Reaches (program wallets settings) (fun _ _ => True) start world)
    (challenge : Uuid) :
    ∃ minted : Option SessionKey, world.committed.keysFor challenge = minted.toList ∧
      ∀ key ∈ minted, ∃ nonce ∈ world.committed.nonces, nonce.id = challenge ∧
        (∃ used, nonce.usedAt = some used ∧ used < nonce.expiresAt) ∧
        wallets.recoverSigner nonce.message key.signature = some nonce.address ∧
        ∃ developer ∈ world.committed.developers, developer.id = key.developerId ∧
          ∀ other ∈ world.committed.developers, other.walletAddress = some nonce.address ↔
              other = developer := by
  have kept := script_lawful.reaches coherent (fun conn mem => by
    obtain ⟨point, fresh, starts⟩ := begun conn mem
    exact ⟨point, fresh, Point.starts_quiet starts⟩) reached
  obtain ⟨minted, listed⟩ := kept.whole.keysFor challenge
  refine ⟨minted, listed, ?_⟩
  intro key member
  have stored : key ∈ world.committed.keysFor challenge := by
    rw [listed]
    exact Option.mem_toList.mpr member
  obtain ⟨minted, same⟩ := mem_filter.mp stored
  obtain ⟨nonce, issued, id, spent, signed, developer, known, owner,
    wallet⟩ := kept.whole.earned key minted
  refine ⟨nonce, issued, id.trans (beq_iff_eq.mp same), spent, signed, developer, known, owner, ?_⟩
  intro _ registered
  have entry {person : Developer} (owns : person.walletAddress = some nonce.address) :
      .wallet nonce.address ∈ developerRows person := by
    simp [developerRows, owns]
  constructor
  · intro owns
    have : Std.Symm fun left right : Developer =>
        (developerRows left).Disjoint (developerRows right) := ⟨fun _ _ apart => apart.symm⟩
    by_contra differs
    exact kept.whole.developers.forall registered known differs (entry owns) (entry wallet)
  · rintro rfl
    exact wallet

def plainWallets : Wallets where
  normalizeAddress := fun address =>
    if address.startsWith "0x" then some address else none
  buildMessage := fun _ nonce _ _ => nonce
  recoverSigner := fun _ signature => some signature

def dayLong : SignInSettings := ⟨300, 86400⟩

def signIn (signature : String) (developerId : Uuid) (keyHash : String) : VerifyRequest where
  address := "0xaa"
  nonce := "n"
  signature := signature
  now := 10
  developerId := developerId
  keyHash := keyHash

def threeSignIns : World Db Row (Point plainWallets) where
  committed :=
    { nonces := [⟨1, "n", "0xaa", "n", 300000000, none⟩]
      developers := [], keys := [] }
  conns := [.fresh (.verify (signIn "0xbb" 5 "h5")), .fresh (.verify (signIn "0xaa" 6 "h6")),
      .fresh (.verify (signIn "0xaa" 7 "h7"))]

def racingSignIns : List Action :=
  [0, 0, 1, 1, 2, 2, 0, 0, 1, 0, 0, 1, 1, 1, 1, 1, 1, 1, 1, 1, 1, 2, 2].map .exec

theorem threeSignIns_begun : ∀ conn ∈ threeSignIns.conns,
    ∃ point, conn = .fresh point ∧ point.starts = true := by
  intro _ mem
  simp only [threeSignIns, mem_cons, not_mem_nil, or_false] at mem
  rcases mem with rfl | rfl | rfl <;> exact ⟨_, rfl, rfl⟩

theorem one_session_per_challenge_racing : ∃ world : World Db Row (Point plainWallets),
      run (program plainWallets dayLong) (fun _ _ => True) threeSignIns racingSignIns = some world ∧
      world.committed.keysFor 1 = [⟨6, "h6", 86400000010, 1, "0xaa"⟩] ∧
      ∃ minted : Option SessionKey, world.committed.keysFor 1 = minted.toList ∧
        ∀ key ∈ minted, ∃ nonce ∈ world.committed.nonces, nonce.id = 1 ∧
          ∃ used, nonce.usedAt = some used ∧ used < nonce.expiresAt := by
  obtain ⟨world, ran, keys⟩ : ∃ world ∈ run (program plainWallets dayLong) (fun _ _ => True)
      threeSignIns racingSignIns,
        world.committed.keysFor 1 = [⟨6, "h6", 86400000010, 1, "0xaa"⟩] := by
    decide +kernel
  obtain ⟨minted, listed, earned⟩ := one_session_per_challenge
    threeSignIns_begun ⟨by decide, .nil, .nil, fun _ mem => absurd mem not_mem_nil⟩
    (reaches_of_run .refl ran) 1
  refine ⟨world, ran, keys, minted, listed, ?_⟩
  intro key member
  obtain ⟨nonce, stored, id, spent, _⟩ := earned key member
  exact ⟨nonce, stored, id, spent⟩

end Gridix.SignIn

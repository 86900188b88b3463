import FinP2PAdapter.Library.CaseFold
import FinP2PAdapter.Library.Interrupts
import FinP2PAdapter.TokenStandards.Registry

/-! What the process keeps of its boots: the pooled providers and signers, and the registry of the token
standards. A signer of the pool counts the nonces of its account itself, so two of them over one account would
give out the same nonce. -/

namespace FinP2PAdapter.Boot

open Interrupts TokenStandards

/-- An object of its own for every `new`. -/
structure JsonRpcProvider where
  id : ℕ
  rpcUrl : String
  deriving DecidableEq, Repr

/-- A `NonceManager` over the wallet of a key. -/
structure PooledSigner where
  id : ℕ
  provider : JsonRpcProvider
  privateKey : String
  deriving DecidableEq, Repr

/-- `created` counts the objects made so far. -/
structure Process (T : Type) where
  providers : JsMap String JsonRpcProvider
  signers : JsMap String PooledSigner
  registry : TokenStandardRegistry T
  created : ℕ

/-- The address of the wallet that `new Wallet` makes of a key, unless it throws. -/
abbrev NewWallet := String → Except String String

variable {T : Type}

variable (toUpperCase : String → String)

def Process.init : Process T := ⟨JsMap.empty, JsMap.empty, ⟨toUpperCase, JsMap.empty⟩, 0⟩

def pooledProvider (rpcUrl : String) : Act String (Process T) JsonRpcProvider := do
  match (← get).providers.get? rpcUrl with
  | some provider => return provider
  | none =>
    let provider : JsonRpcProvider := ⟨(← get).created, rpcUrl⟩
    modify fun p => { p with providers := p.providers.set rpcUrl provider, created := p.created + 1 }
    return provider

/-- `privateKey.toLowerCase()` without its `0x`. -/
def normalizedKey (privateKey : String) : String :=
  match privateKey.toLower.toList with
  | '0' :: 'x' :: digits => String.ofList digits
  | _ => privateKey.toLower

def poolKey (rpcUrl privateKey : String) : String := s!"{rpcUrl}|{normalizedKey privateKey}"

def newSigner (newWallet : NewWallet) (rpcUrl privateKey : String) : Act String (Process T) PooledSigner := do
  let provider ← pooledProvider rpcUrl
  match newWallet privateKey with
  | .error e => throw e
  | .ok _ =>
    let signer : PooledSigner := ⟨(← get).created, provider, privateKey⟩
    modify fun p => { p with signers := p.signers.set (poolKey rpcUrl privateKey) signer, created := p.created + 1 }
    return signer

def pooledSigner (newWallet : NewWallet) (rpcUrl privateKey : String) : Act String (Process T) PooledSigner := do
  match (← get).signers.get? (poolKey rpcUrl privateKey) with
  | some signer => return signer
  | none => newSigner newWallet rpcUrl privateKey

/-! ### What is pooled stays -/

/-- Everything that was there is there still, and what is new has not been made before. -/
structure Process.Grown (p p' : Process T) : Prop where
  providers : ∀ url provider, p.providers.get? url = some provider → p'.providers.get? url = some provider
  signers : ∀ key signer, p.signers.get? key = some signer → p'.signers.get? key = some signer
  standards : ∀ name e, p.registry.standards.get? name = some e → p'.registry.standards.get? name = some e
  toUpperCase : p'.registry.toUpperCase = p.registry.toUpperCase
  created : p.created ≤ p'.created

theorem Process.Grown.refl (p : Process T) : p.Grown p :=
  ⟨fun _ _ h => h, fun _ _ h => h, fun _ _ h => h, rfl, Nat.le_refl _⟩

theorem Process.Grown.trans {p q r : Process T} (h : p.Grown q) (h' : q.Grown r) : p.Grown r :=
  ⟨fun _ _ hp => h'.providers _ _ (h.providers _ _ hp), fun _ _ hp => h'.signers _ _ (h.signers _ _ hp),
    fun _ _ hp => h'.standards _ _ (h.standards _ _ hp), h'.toUpperCase.trans h.toUpperCase,
    Nat.le_trans h.created h'.created⟩

/-- The pool's entries are filed under what they were asked for, and no two of them are the same object. -/
structure Process.Filed (p : Process T) : Prop where
  provider : ∀ url provider, p.providers.get? url = some provider → provider.rpcUrl = url
  signer : ∀ key signer, p.signers.get? key = some signer →
    key = poolKey signer.provider.rpcUrl signer.privateKey
  old : ∀ key signer, p.signers.get? key = some signer → signer.id < p.created
  distinct : ∀ key key' signer signer', p.signers.get? key = some signer → p.signers.get? key' = some signer' →
    signer.id = signer'.id → key = key'

theorem Process.filed_init : (Process.init toUpperCase : Process T).Filed := ⟨nofun, nofun, nofun, nofun⟩

/-- What a program leaves of a process whose pool is in order. -/
structure Process.Later (p p' : Process T) : Prop where
  grown : p.Grown p'
  filed : p'.Filed

theorem get?_set_of_absent {K V : Type} [DecidableEq K] {m : JsMap K V} {k k' : K} {v w : V}
    (habsent : m.get? k = none) (h : m.get? k' = some w) : (m.set k v).get? k' = some w := by
  rw [JsMap.get?_set_of_ne _ _ ?_, h]
  rintro rfl
  rw [habsent] at h
  cases h

variable {p : Process T} (newWallet : NewWallet) (rpcUrl privateKey : String)

theorem pooledProvider_later (hp : p.Filed) : ∃ provider p', exec (pooledProvider rpcUrl) p = (.ok provider, p') ∧
    p.Later p' ∧ p'.providers.get? rpcUrl = some provider ∧ p'.signers = p.signers ∧
      p'.registry = p.registry := by
  cases hget : p.providers.get? rpcUrl with
  | some provider =>
    refine ⟨provider, p, ?_, ⟨.refl p, hp⟩, hget, rfl, rfl⟩
    simp only [pooledProvider, exec_bind, exec_get, hget, exec_pure]
  | none =>
    refine ⟨⟨p.created, rpcUrl⟩, { p with
      providers := p.providers.set rpcUrl ⟨p.created, rpcUrl⟩
      created := p.created + 1 }, ?_, ⟨⟨?_, fun _ _ h => h, fun _ _ h => h, rfl, Nat.le_succ _⟩, ?_⟩,
      JsMap.get?_set_self _ _ _, rfl, rfl⟩
    · simp only [pooledProvider, exec_bind, exec_get, hget, exec_modify, exec_pure]
    · intro url provider h
      exact get?_set_of_absent hget h
    · refine ⟨?_, hp.signer, fun key signer h => Nat.lt_succ_of_lt (hp.old key signer h), hp.distinct⟩
      intro url provider h
      rw [JsMap.get?_set] at h
      split_ifs at h with hurl
      · cases h
        exact hurl.symm
      · exact hp.provider url provider h

/-- A signer is handed out only if it is the one in the pool under what was asked for, and only one of the key
that was asked for is added. -/
structure Serves (rpcUrl privateKey : String) (p p' : Process T) (result : Except String PooledSigner) : Prop where
  later : p.Later p'
  pooled : ∀ signer, result = .ok signer → p'.signers.get? (poolKey rpcUrl privateKey) = some signer
  added : ∀ key signer, p'.signers.get? key = some signer →
    p.signers.get? key = some signer ∨ signer.privateKey = privateKey
  registry : p'.registry = p.registry

theorem pooledSigner_serves (hp : p.Filed) :
    Serves rpcUrl privateKey p (exec (pooledSigner newWallet rpcUrl privateKey) p).2
      (exec (pooledSigner newWallet rpcUrl privateKey) p).1 := by
  cases hget : p.signers.get? (poolKey rpcUrl privateKey) with
  | some signer =>
    simp only [pooledSigner, exec_bind, exec_get, hget, exec_pure]
    refine ⟨⟨.refl p, hp⟩, ?_, fun _ _ h => .inl h, rfl⟩
    rintro _ ⟨⟩
    exact hget
  | none =>
    obtain ⟨provider, p₁, hexec, hlater, hprovider, hsigners, hregistry⟩ := pooledProvider_later rpcUrl hp
    have hurl := hlater.filed.provider _ _ hprovider
    simp only [pooledSigner, newSigner, exec_bind, exec_get, hget, hexec]
    cases hwallet : newWallet privateKey with
    | error e =>
      refine ⟨hlater, ?_, fun _ _ h => .inl (hsigners ▸ h), hregistry⟩
      intro signer h
      cases h
    | ok address =>
      rw [← hsigners] at hget
      have hfiled := hlater.filed
      simp only [exec_bind, exec_get, exec_modify, exec_pure]
      refine ⟨⟨hlater.grown.trans ⟨fun _ _ h => h, fun _ _ h => get?_set_of_absent hget h, fun _ _ h => h,
        rfl, Nat.le_succ _⟩, hfiled.provider, ?_, ?_, ?_⟩, ?_, ?_, hregistry⟩
      · intro key signer h
        rw [JsMap.get?_set] at h
        split_ifs at h with hkey
        · cases h
          rw [hkey, hurl]
        · exact hfiled.signer key signer h
      · intro key signer h
        rw [JsMap.get?_set] at h
        split_ifs at h with hkey
        · cases h
          exact Nat.lt_succ_self _
        · exact Nat.lt_succ_of_lt (hfiled.old key signer h)
      · intro key key' signer signer' h h' hid
        rw [JsMap.get?_set] at h h'
        split_ifs at h h' with hkey hkey' hkey'
        · rw [hkey, hkey']
        · cases h
          exact absurd hid (Nat.ne_of_gt (hfiled.old key' signer' h'))
        · cases h'
          exact absurd hid (Nat.ne_of_lt (hfiled.old key signer h))
        · exact hfiled.distinct key key' signer signer' h h' hid
      · rintro _ ⟨⟩
        exact JsMap.get?_set_self _ _ _
      · intro key signer h
        rw [JsMap.get?_set] at h
        split_ifs at h with hkey
        · cases h
          exact .inr rfl
        · exact .inl (hsigners ▸ h)

/-! ### Keys -/

theorem toLower_eq_bar {c : Char} (h : c.toLower = '|') : c = '|' := by
  unfold Char.toLower at h
  split_ifs at h with hupper
  · exfalso
    have hval := congrArg (fun c : Char => c.val.toNat) h
    simp only [ge_iff_le, UInt32.le_iff_toNat_le, UInt32.toNat_add, UInt32.toNat_sub, Char.reduceVal,
      UInt32.reduceToNat] at hval hupper
    omega
  · exact h

variable {rpcUrl privateKey}

theorem bar_notMem_normalizedKey (h : '|' ∉ privateKey.toList) : '|' ∉ (normalizedKey privateKey).toList := by
  have hlower : '|' ∉ privateKey.toLower.toList := by
    rw [toList_toLower]
    rintro hmem
    obtain ⟨c, hc, hbar⟩ := List.mem_map.mp hmem
    rw [toLower_eq_bar hbar] at hc
    exact h hc
  unfold normalizedKey
  split
  · rename_i digits heq
    rw [String.toList_ofList]
    intro hmem
    exact hlower (heq ▸ List.mem_cons_of_mem _ (List.mem_cons_of_mem _ hmem))
  · exact hlower

/-- The first separator splits a list in one way. -/
theorem eq_of_append_cons {x : Char} {bs ds as cs : List Char} (hb : x ∉ bs) (hd : x ∉ ds)
    (h : bs ++ x :: as = ds ++ x :: cs) : bs = ds ∧ as = cs := by
  induction bs generalizing ds with
  | nil =>
    cases ds with
    | nil => exact ⟨rfl, List.tail_eq_of_cons_eq h⟩
    | cons d ds => exact absurd (List.mem_cons.mpr (.inl (List.head_eq_of_cons_eq h))) hd
  | cons b bs ih =>
    cases ds with
    | nil => exact absurd (List.mem_cons.mpr (.inl (List.head_eq_of_cons_eq h).symm)) hb
    | cons d ds =>
      obtain ⟨rfl, hrest⟩ := List.cons_eq_cons.mp h
      obtain ⟨rfl, rfl⟩ := ih (fun hmem => hb (List.mem_cons_of_mem _ hmem))
        (fun hmem => hd (List.mem_cons_of_mem _ hmem)) hrest
      exact ⟨rfl, rfl⟩

/-- Keys without a bar are filed apart unless they are the same up to `0x` and letter case. -/
theorem poolKey_eq_iff {rpcUrl' privateKey' : String} (h : '|' ∉ privateKey.toList)
    (h' : '|' ∉ privateKey'.toList) :
    poolKey rpcUrl privateKey = poolKey rpcUrl' privateKey' ↔
      rpcUrl = rpcUrl' ∧ normalizedKey privateKey = normalizedKey privateKey' := by
  constructor
  · intro heq
    have hlist := congrArg (fun key : String => key.toList.reverse) heq
    have hshape : ∀ url key : String, (poolKey url key).toList.reverse =
        (normalizedKey key).toList.reverse ++ '|' :: url.toList.reverse := by
      intro url key
      simp [poolKey, toString, String.toList_append]
    simp only [hshape] at hlist
    obtain ⟨hkeys, hurls⟩ := eq_of_append_cons (by simpa using bar_notMem_normalizedKey h)
      (by simpa using bar_notMem_normalizedKey h') hlist
    exact ⟨String.toList_injective (List.reverse_injective hurls),
      String.toList_injective (List.reverse_injective hkeys)⟩
  · rintro ⟨rfl, hkey⟩
    unfold poolKey
    rw [hkey]

/-! ### Runs -/

/-- The signers of a process are asked for one after another; a request that throws is none of the others'
business. -/
def serve (newWallet : NewWallet) : List (String × String) → Process T →
    List (Except String PooledSigner) × Process T
  | [], p => ([], p)
  | (rpcUrl, privateKey) :: requests, p =>
    let (signer, p) := exec (pooledSigner newWallet rpcUrl privateKey) p
    let (signers, p) := serve newWallet requests p
    (signer :: signers, p)

/-- The signers a run has handed out, each still in the pool under what was asked for. -/
structure Served (requests : List (String × String)) (results : List (Except String PooledSigner))
    (p p' : Process T) : Prop where
  later : p.Later p'
  pooled : ∀ (n : ℕ) (signer : PooledSigner), results[n]? = some (Except.ok signer) →
    ∃ request : String × String, requests[n]? = some request ∧
      p'.signers.get? (poolKey request.1 request.2) = some signer
  added : ∀ key signer, p'.signers.get? key = some signer →
    p.signers.get? key = some signer ∨ ∃ request ∈ requests, signer.privateKey = request.2

theorem serve_served (requests : List (String × String)) (hp : p.Filed) :
    Served requests (serve newWallet requests p).1 p (serve newWallet requests p).2 := by
  induction requests generalizing p with
  | nil => exact ⟨⟨.refl p, hp⟩, nofun, fun _ _ h => .inl h⟩
  | cons request requests ih =>
    have hfirst := pooledSigner_serves newWallet request.1 request.2 hp
    have hrest := ih hfirst.later.filed
    refine ⟨⟨hfirst.later.grown.trans hrest.later.grown, hrest.later.filed⟩, fun n signer hn => ?_,
      fun key signer h => ?_⟩
    · cases n with
      | zero =>
        refine ⟨request, rfl, hrest.later.grown.signers _ _ (hfirst.pooled signer ?_)⟩
        simpa [serve] using hn
      | succ n => exact hrest.pooled n signer hn
    · rcases hrest.added key signer h with h | ⟨r, hr, hkey⟩
      · rcases hfirst.added key signer h with h | hkey
        · exact .inl h
        · exact .inr ⟨request, List.mem_cons_self, hkey⟩
      · exact .inr ⟨r, List.mem_cons_of_mem _ hr, hkey⟩

/-- Over one account of one node there is one nonce manager: in every run of requests, from wherever in the boot
they come, two of them get the same one exactly if they name the same node and, but for `0x` and letter case, the
same key. -/
theorem signers_shared (requests : List (String × String)) (hkeys : ∀ request ∈ requests, '|' ∉ request.2.toList)
    (n n' : ℕ) (signer signer' : PooledSigner)
    (hn : (serve newWallet requests (Process.init toUpperCase : Process T)).1[n]? = some (Except.ok signer))
    (hn' : (serve newWallet requests (Process.init toUpperCase : Process T)).1[n']? = some (Except.ok signer')) :
    ∃ request request', requests[n]? = some request ∧ requests[n']? = some request' ∧
      signer.provider.rpcUrl = request.1 ∧ normalizedKey signer.privateKey = normalizedKey request.2 ∧
      (signer.id = signer'.id ↔ request.1 = request'.1 ∧ normalizedKey request.2 = normalizedKey request'.2) := by
  have hserved := serve_served newWallet requests (Process.filed_init toUpperCase (T := T))
  have hfiled := hserved.later.filed
  obtain ⟨request, hrequest, hpooled⟩ := hserved.pooled n signer hn
  obtain ⟨request', hrequest', hpooled'⟩ := hserved.pooled n' signer' hn'
  have hkey := hkeys request (List.mem_of_getElem? hrequest)
  have hkey' := hkeys request' (List.mem_of_getElem? hrequest')
  have hsignerKey : '|' ∉ signer.privateKey.toList := by
    rcases hserved.added _ _ hpooled with h | ⟨r, hr, heq⟩
    · cases h
    · rw [heq]
      exact hkeys r hr
  obtain ⟨hurl, hnormal⟩ := (poolKey_eq_iff hkey hsignerKey).mp (hfiled.signer _ _ hpooled)
  refine ⟨request, request', hrequest, hrequest', hurl.symm, hnormal.symm, ?_⟩
  rw [← poolKey_eq_iff hkey hkey']
  constructor
  · exact hfiled.distinct _ _ _ _ hpooled hpooled'
  · intro heq
    rw [heq, hpooled'] at hpooled
    cases hpooled
    rfl

/-- The issuer's key, written in two ways. -/
def issuerRequests : List (String × String) := [("http://node", "0xAB"), ("http://node", "ab")]

theorem issuer_shared : ∃ signer signer',
    (serve (.ok ·) issuerRequests (Process.init String.toUpper : Process Unit)).1[0]? = some (Except.ok signer) ∧
    (serve (.ok ·) issuerRequests (Process.init String.toUpper : Process Unit)).1[1]? = some (Except.ok signer') ∧
    signer.id = signer'.id := by
  have h : (serve (.ok ·) issuerRequests (Process.init String.toUpper : Process Unit)).1[0]? =
      some (Except.ok ⟨1, ⟨0, "http://node"⟩, "0xAB"⟩) := by decide +kernel
  have h' : (serve (.ok ·) issuerRequests (Process.init String.toUpper : Process Unit)).1[1]? =
      some (Except.ok ⟨1, ⟨0, "http://node"⟩, "0xAB"⟩) := by decide +kernel
  obtain ⟨request, request', hrequest, hrequest', -, -, hsame⟩ :=
    signers_shared String.toUpper (.ok ·) issuerRequests (by decide) 0 1 _ _ h h'
  cases hrequest
  cases hrequest'
  exact ⟨_, _, h, h', hsame.mpr (by decide +kernel)⟩

end FinP2PAdapter.Boot

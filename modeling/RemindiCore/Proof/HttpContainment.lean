import RemindiCore.Triggers.HttpHealth
import Mathlib.Algebra.GroupWithZero.Nat

/-!
# The containment of the HTTP adapter

Whatever DNS and the other side answer, and wherever the probe is stopped: each of
its requests is an HTTPS request to the configured origin, sent to the addresses
that have just been looked up and have passed the policy (`Contained`).  A probe
that reports a healthy target has read no more of the body than it may.

The loop is followed round by round: what its state says of the traffic so far
(`Round`) is kept by a redirection, and each way out of a round ends in `Contained`.
-/

namespace RemindiCore.Triggers

open Fallible

variable {x : UrlCrate} {target : HttpTarget x} {s t : List (Traffic x)}

/-! ## What is contained -/

def Traffic.isRequest : Traffic x → Bool
  | .request _ _ => true
  | _ => false

def Traffic.bytes : Traffic x → Nat
  | .chunk length => length
  | _ => 0

def requests (traffic : List (Traffic x)) : Nat := traffic.countP Traffic.isRequest

def bytesRead (traffic : List (Traffic x)) : Nat := (traffic.map Traffic.bytes).sum

/-- A request after this traffic is an HTTPS request to the origin of the target, and
goes to the addresses that the last lookup has answered for its host, all of which
pass the policy. -/
def Allowed (target : HttpTarget x) (before : List (Traffic x)) (url : x.Url)
    (addresses : List SocketAddr) : Prop :=
  x.scheme url = "https" ∧ origin url = origin target.url ∧
    (∃ earlier host port, origin url = .ok (host, port) ∧
      before = earlier ++ [.lookup host port (some addresses)]) ∧
    ∀ address ∈ addresses, validateDestination address.ip target.policy = .ok ()

/-- **The outbound containment.** -/
structure Contained (target : HttpTarget x) (traffic : List (Traffic x)) : Prop where
  allowed : ∀ before url addresses after,
    traffic = before ++ .request url addresses :: after → Allowed target before url addresses
  atMostFour : requests traffic ≤ 4
  noRedirects : target.allowRedirects = false → requests traffic ≤ 1

/-! ## The traffic of a call -/

theorem requests_append (s t : List (Traffic x)) : requests (s ++ t) = requests s + requests t :=
  List.countP_append

theorem bytesRead_append (s t : List (Traffic x)) :
    bytesRead (s ++ t) = bytesRead s + bytesRead t := by
  unfold bytesRead
  rw [List.map_append, List.sum_append]

/-- Traffic that is split at a request has it at the end, or was split there before. -/
theorem split_last {before after : List (Traffic x)} {e r : Traffic x}
    (h : s ++ [e] = before ++ r :: after) :
    (after = [] ∧ before = s ∧ r = e) ∨ ∃ rest, after = rest ++ [e] ∧ s = before ++ r :: rest := by
  rcases List.eq_nil_or_concat after with rfl | ⟨rest, last, rfl⟩
  · obtain ⟨hs, he⟩ := List.append_inj' h rfl
    exact Or.inl ⟨rfl, hs.symm, (List.cons.inj he).1.symm⟩
  · rw [List.concat_eq_append] at h ⊢
    rw [show before ++ r :: (rest ++ [last]) = (before ++ r :: rest) ++ [last] by simp] at h
    obtain ⟨hs, he⟩ := List.append_inj' h rfl
    obtain rfl := (List.cons.inj he).1
    exact Or.inr ⟨rest, rfl, hs⟩

/-- Traffic that is no request changes nothing. -/
theorem Contained.append (h : Contained target s) {e : Traffic x} (he : e.isRequest = false) :
    Contained target (s ++ [e]) where
  allowed := by
    intro before url addresses after hsplit
    rcases split_last hsplit with ⟨-, -, rfl⟩ | ⟨rest, -, hs⟩
    · cases he
    · exact h.allowed before url addresses rest hs
  atMostFour := by
    rw [requests_append]
    simpa [requests, he] using h.atMostFour
  noRedirects := by
    intro hallow
    rw [requests_append]
    simpa [requests, he] using h.noRedirects hallow

/-- One more request, which is allowed. -/
theorem Contained.request (h : Contained target s) {url : x.Url} {addresses : List SocketAddr}
    (hallowed : Allowed target s url addresses) (hfour : requests s ≤ 3)
    (hone : target.allowRedirects = false → requests s = 0) :
    Contained target (s ++ [.request url addresses]) where
  allowed := by
    intro before url' addresses' after hsplit
    rcases split_last hsplit with ⟨-, rfl, hrequest⟩ | ⟨rest, -, hs⟩
    · obtain ⟨rfl, rfl⟩ := Traffic.request.inj hrequest
      exact hallowed
    · exact h.allowed before url' addresses' rest hs
  atMostFour := by
    rw [requests_append]
    show requests s + 1 ≤ 4
    omega
  noRedirects := by
    intro hallow
    rw [requests_append, hone hallow]
    exact Nat.le_refl 1

/-! ## The probe -/

/-- The traffic is contained wherever the program stops, and `post` holds when it returns. -/
abbrev Contains {α : Type} (target : HttpTarget x)
    (post : Except AdapterConfigError α → List (Traffic x) → Prop) (m : NetworkProgram x α)
    (s : List (Traffic x)) : Prop :=
  Ensures (network x) (fun _ => True) (Contained target) post m s

theorem contains_ofExcept {α β : Type} {e : Except AdapterConfigError α}
    {next : α → NetworkProgram x β}
    {post : Except AdapterConfigError β → List (Traffic x) → Prop}
    (hok : ∀ a, e = .ok a → Contains target post (next a) s)
    (herror : ∀ error, e = .error error → post (.error error) s) :
    Contains target post ((Prog.ofExcept e).bind next) s := by
  refine Ensures.bind (Ensures.ofExcept ?_)
  cases e with
  | ok a => exact hok a rfl
  | error error => exact herror error rfl

/-- A redirection is to an HTTPS URL. -/
theorem nextRedirect_https {current next : x.Url} {location : String}
    (h : nextRedirect current location = .ok next) : x.scheme next = "https" := by
  unfold nextRedirect at h
  cases hjoin : x.join current location with
  | none =>
    rw [hjoin] at h
    cases h
  | some destination =>
    rw [hjoin] at h
    dsimp only at h
    split at h
    · cases h
    · next hchecked =>
      rw [not_or, not_not] at hchecked
      cases hdestination : origin destination with
      | error e =>
        rw [hdestination] at h
        cases h
      | ok a =>
        cases hcurrent : origin current with
        | error e =>
          rw [hdestination, hcurrent] at h
          cases h
        | ok b =>
          rw [hdestination, hcurrent] at h
          have hresult : (if a ≠ b then Except.error .destinationDenied else .ok destination) =
              (.ok next : Except AdapterConfigError x.Url) := h
          split at hresult
          · cases hresult
          · obtain rfl := Except.ok.inj hresult
            exact hchecked.1

theorem boundedTotal_ok {current additional maximum total : Nat}
    (h : boundedTotal current additional maximum = .ok total) :
    total = current + additional ∧ total ≤ maximum := by
  unfold boundedTotal at h
  split at h
  · cases h
  · split at h
    · cases h
    · obtain rfl := Except.ok.inj h
      exact ⟨rfl, by omega⟩

/-- What is read is accounted for. -/
theorem contains_consumeBounded {maximum : Nat} (chunks total : Nat) (hs : Contained target s)
    (htotal : total = bytesRead s) (hle : total ≤ maximum) :
    Contains target (fun result t => Contained target t ∧
      (result = .ok () → bytesRead t ≤ maximum)) (consumeBounded maximum chunks total) s := by
  induction chunks generalizing s total with
  | zero => exact ⟨hs, nofun⟩
  | succ chunks ih =>
    unfold consumeBounded
    refine Ensures.bind (Ensures.perform (k := NetworkCall.nextChunk) hs
      (fun a chunk _ hchunk => ?_) fun a _ hnone => ?_)
    · have hreply : a.chunk = some chunk := hchunk
      cases chunk with
      | none =>
        have hafter : (serveNetwork (.nextChunk : NetworkCall x) a s).2 = s := by
          simp only [serveNetwork, hreply]
        rw [show (network x).serve = serveNetwork from rfl, hafter]
        exact ⟨hs, fun _ => htotal ▸ hle⟩
      | some length =>
        have hafter : (serveNetwork (.nextChunk : NetworkCall x) a s).2 = s ++ [.chunk length] := by
          simp only [serveNetwork, hreply]
        rw [show (network x).serve = serveNetwork from rfl, hafter]
        have hcontained : Contained target (s ++ [.chunk length]) := hs.append rfl
        refine contains_ofExcept (fun total' htotal' => ?_) fun _ _ => ⟨hcontained, nofun⟩
        obtain ⟨rfl, hle'⟩ := boundedTotal_ok htotal'
        refine ih (total + length) hcontained ?_ hle'
        rw [bytesRead_append, htotal]
        rfl
    · have hreply : a.chunk = none := hnone
      have hafter : (serveNetwork (.nextChunk : NetworkCall x) a s).2 = s := by
        simp only [serveNetwork, hreply]
      rw [show (network x).serve = serveNetwork from rfl, hafter]
      exact ⟨hs, nofun⟩

/-- What a probe has done when it returns. -/
def Reported (target : HttpTarget x) (result : Except AdapterConfigError Bool)
    (t : List (Traffic x)) : Prop :=
  Contained target t ∧ (result = .ok true → bytesRead t ≤ target.maxResponseBytes)

theorem contains_judge {expectedStatus : Option UInt16} {response : Response} (chunks : Nat)
    (hs : Contained target s) (hnothing : bytesRead s = 0) :
    Contains target (Reported target) (judge target expectedStatus chunks response) s := by
  unfold judge
  split
  · exact ⟨hs, nofun⟩
  split
  · exact ⟨hs, nofun⟩
  refine Ensures.bind ((contains_consumeBounded chunks 0 hs hnothing.symm (Nat.zero_le _)).mono ?_)
  rintro (e | ⟨⟩) t ⟨ht, hread⟩
  · exact ⟨ht, nofun⟩
  have hbound : bytesRead t ≤ target.maxResponseBytes := hread rfl
  cases expectedStatus with
  | none => exact ⟨ht, fun _ => hbound⟩
  | some expected =>
    dsimp only
    cases statusCode expected with
    | none => exact ⟨ht, nofun⟩
    | some code => exact ⟨ht, fun _ => hbound⟩

/-- The addresses of a hop are the answer of its lookup, and all pass the policy. -/
theorem contains_resolveTarget {α : Type} {host : String} {port : UInt16}
    {next : List SocketAddr → NetworkProgram x α}
    {post : Except AdapterConfigError α → List (Traffic x) → Prop} (hs : Contained target s)
    (hok : ∀ addresses, (∀ a ∈ addresses, validateDestination a.ip target.policy = .ok ()) →
      Contained target (s ++ [.lookup host port (some addresses)]) →
      Contains target post (next addresses) (s ++ [.lookup host port (some addresses)]))
    (herror : ∀ error t, Contained target t → post (.error error) t) :
    Contains target post ((resolveTarget host port target.policy).bind next) s := by
  refine Ensures.bind (Ensures.bind (Ensures.perform (k := NetworkCall.lookupHost host port) hs
    (fun a addresses _ haddresses => ?_) fun a _ _ => herror _ _ (hs.append rfl)))
  have hreply : a.addresses = some addresses := haddresses
  have hafter : (serveNetwork (.lookupHost host port : NetworkCall x) a s).2 =
      s ++ [.lookup host port (some addresses)] := by
    simp only [serveNetwork, hreply]
  rw [show (network x).serve = serveNetwork from rfl, hafter]
  have hcontained : Contained target (s ++ [.lookup host port (some addresses)]) := hs.append rfl
  dsimp only
  by_cases hempty : addresses.isEmpty = true
  · rw [if_pos hempty]
    exact herror _ _ hcontained
  rw [if_neg hempty]
  refine contains_ofExcept (fun _ hvalid => ?_) fun _ _ => herror _ _ hcontained
  exact hok addresses (validateAll_ok hvalid) hcontained

/-- What holds at the start of a round of the loop. -/
structure Round (target : HttpTarget x) (rounds redirectCount : Nat) (current : x.Url)
    (s : List (Traffic x)) : Prop where
  contained : Contained target s
  https : x.scheme current = "https"
  rounds : rounds + redirectCount = 4
  requests : requests s = redirectCount
  allowed : target.allowRedirects = false → redirectCount = 0
  nothing : bytesRead s = 0

/-- **Every round of the loop**, and so the rest of the probe. -/
theorem contains_probeFrom {expectedStatus : Option UInt16} (chunks rounds redirectCount : Nat)
    (current : x.Url) (h : Round target rounds redirectCount current s) :
    Contains target (Reported target)
      (probeFrom target expectedStatus chunks rounds redirectCount current) s := by
  induction rounds generalizing redirectCount current s with
  | zero => exact ⟨h.contained, nofun⟩
  | succ rounds ih =>
    have hfails : ∀ error t, Contained target t → Reported target (.error error) t :=
      fun _ _ ht => ⟨ht, nofun⟩
    unfold probeFrom
    simp only [Prog.bind_eq]
    refine contains_ofExcept (fun original horiginal => ?_) fun _ _ => hfails _ _ h.contained
    refine contains_ofExcept (fun found hfound => ?_) fun _ _ => hfails _ _ h.contained
    obtain ⟨host, port⟩ := found
    dsimp only
    split
    · exact hfails _ _ h.contained
    next hsame =>
    rw [not_not] at hsame
    refine contains_resolveTarget h.contained (fun addresses hvalid hlooked => ?_) hfails
    -- the request goes where the lookup has led
    have hallowed : Allowed target (s ++ [.lookup host port (some addresses)]) current addresses :=
      ⟨h.https, by rw [hfound, hsame, horiginal], ⟨s, host, port, hfound, rfl⟩, hvalid⟩
    have hcount : requests (s ++ [.lookup host port (some addresses)]) = redirectCount := by
      rw [requests_append, h.requests]
      rfl
    have hrounds := h.rounds
    have hcontained := hlooked.request hallowed (by omega) fun hallow => by
      rw [hcount]
      exact h.allowed hallow
    have hnothing : bytesRead (s ++ [.lookup host port (some addresses)] ++
        [.request current addresses]) = 0 := by
      rw [bytesRead_append, bytesRead_append, h.nothing]
      rfl
    refine Ensures.bind (Ensures.perform (k := NetworkCall.send current addresses) hlooked
      (fun a response _ _ => ?_) fun a _ _ => hfails _ _ hcontained)
    show Contains target _ _ (s ++ [.lookup host port (some addresses)] ++
      [.request current addresses])
    split
    · split
      · exact hfails _ _ hcontained
      next hredirect =>
      rw [Bool.not_eq_true, Bool.or_eq_false_iff, Bool.not_eq_false'] at hredirect
      cases response.location with
      | none => exact hfails _ _ hcontained
      | some location =>
        refine contains_ofExcept (fun next hnext => ?_) fun _ _ => hfails _ _ hcontained
        refine ih (redirectCount + 1) next ⟨hcontained, nextRedirect_https hnext, by omega, ?_, ?_,
          hnothing⟩
        · rw [requests_append, hcount]
          rfl
        · intro hallow
          rw [hredirect.1] at hallow
          cases hallow
    · exact contains_judge chunks hcontained hnothing

/-- **The outbound containment of the HTTP adapter.**  The answers are those of an
adversary, and the probe may be stopped at any call. -/
theorem probe_contained (target : HttpTarget x) (expectedStatus : Option UInt16) (chunks : Nat)
    (answers : List Adversary) :
    Contained target (run (network x) (answers.map .answer) (.start [])
      (probe target expectedStatus chunks)).1.state ∧
      ((run (network x) (answers.map .answer) (.start [])
        (probe target expectedStatus chunks)).2 = some (.ok true) →
        bytesRead (run (network x) (answers.map .answer) (.start [])
          (probe target expectedStatus chunks)).1.state ≤ target.maxResponseBytes) := by
  have hstart : Contained target ([] : List (Traffic x)) := by
    refine ⟨fun before url addresses after hsplit => ?_, Nat.zero_le 4, fun _ => Nat.zero_le 1⟩
    cases before <;> cases hsplit
  have hensures : Contains target (Reported target) (probe target expectedStatus chunks) [] :=
    contains_probeFrom chunks _ 0 target.url ⟨hstart, target.https, rfl, rfl, fun _ => rfl, rfl⟩
  have hrun := hensures.run answers fun _ _ => trivial
  cases hresult : (run (network x) (answers.map .answer) (.start [])
      (probe target expectedStatus chunks)).2 with
  | none => exact ⟨hrun.2 hresult, nofun⟩
  | some result =>
    obtain ⟨hcontained, hread⟩ := hrun.1 result hresult
    exact ⟨hcontained, fun htrue => hread (Option.some.inj htrue)⟩

end RemindiCore.Triggers

import RemindiCore.Proof.HttpContainment
import RemindiCore.Proof.PublishedAdapters
import RemindiCore.Proof.RestartAfterRestore
import RemindiCore.Triggers.Evaluate

/-!
# The containment of conditions

A condition names an adapter and gives it parameters.  Whatever these are, and whatever
DNS, the peers and the file system answer: an evaluation contacts only what the
configuration of an enabled adapter allows under the alias that the parameters name
(`Permits`), and reports the condition as satisfied only on evidence of what it has
contacted (`Evidence`).  It may be cancelled or run out of time at any of its calls.
-/

namespace RemindiCore.Triggers

open CivilTime Fallible JsonText Transaction Admin

variable {x : UrlCrate}

/-! ## What is permitted -/

/-- Lookups of one host, and connections to what they answer. -/
inductive TcpPermits (host : String) (port : UInt16) (policy : NetworkPolicy)
    (before : List (Contact x)) : Contact x → Prop where
  | lookup (answer : Option (List SocketAddr)) :
      TcpPermits host port policy before (.network (.lookup host port answer))
  | connect (address : SocketAddr) (accepted : Bool) (addresses : List SocketAddr)
      (looked : Contact.network (.lookup host port (some addresses)) ∈ before)
      (mem : address ∈ addresses)
      (valid : ∀ a ∈ addresses, validateDestination a.ip policy = .ok ()) :
      TcpPermits host port policy before (.connect address accepted)

/-- Lookups of the host of the URL, and HTTPS requests to its origin at the addresses that
have just been looked up. -/
inductive HttpPermits (url : x.Url) (policy : NetworkPolicy) (before : List (Contact x)) :
    Contact x → Prop where
  | lookup (host : String) (port : UInt16) (answer : Option (List SocketAddr))
      (own : origin url = .ok (host, port)) :
      HttpPermits url policy before (.network (.lookup host port answer))
  | request (destination : x.Url) (addresses : List SocketAddr) (host : String) (port : UInt16)
      (earlier : List (Contact x)) (https : x.scheme destination = "https")
      (own : origin url = .ok (host, port)) (same : origin destination = origin url)
      (looked : before = earlier ++ [.network (.lookup host port (some addresses))])
      (valid : ∀ a ∈ addresses, validateDestination a.ip policy = .ok ()) :
      HttpPermits url policy before (.network (.request destination addresses))
  | chunk (length : Nat) : HttpPermits url policy before (.network (.chunk length))

/-- Resolutions of the path and what is above it, and a look at what it has just been
resolved to, below a root. -/
inductive FilePermits (path : PathBuf) (roots : List PathBuf) (before : List (Contact x)) :
    Contact x → Prop where
  | canonicalize (ancestor : PathBuf) (answer : Canonical)
      (absolute : ancestor.absolute = path.absolute) (above : ancestor.names <+: path.names) :
      FilePermits path roots before (.canonicalize ancestor answer)
  | metadata (resolved : PathBuf) (found : Bool) (earlier : List (Contact x))
      (looked : before = earlier ++ [.canonicalize path (.resolved resolved)])
      (below : ∃ root ∈ roots, resolved.startsWith root = true) :
      FilePermits path roots before (.metadata resolved found)

/-! ## The guard -/

/-- Everything that was contacted is permitted, and a satisfied condition has evidence. -/
def Sound {α : Type} (P : List (Contact x) → Contact x → Prop) (E : List (Contact x) → Prop)
    (satisfied : α → Prop) (result : Except AdapterConfigError α) (s : List (Contact x)) : Prop :=
  Admitted P s ∧ ∀ a, result = .ok a → satisfied a → E s

abbrev Finding.isSatisfied (finding : Finding) : Prop := finding.1 = .satisfied

abbrev AdapterResult.isSatisfied (result : AdapterResult) : Prop := result.status = .satisfied

section

variable {P : List (Contact x) → Contact x → Prop} {E : List (Contact x) → Prop}
  {s : List (Contact x)}

/-- The program is sound, however the calls are answered and wherever it is stopped. -/
abbrev IsSound {α : Type} (P : List (Contact x) → Contact x → Prop) (E : List (Contact x) → Prop)
    (satisfied : α → Prop) (m : ConditionProgram x α) (s : List (Contact x)) : Prop :=
  Ensures (conditions x) (fun _ => True) (Admitted P) (Sound P E satisfied) m s

theorem IsSound.admitted {α : Type} {satisfied : α → Prop} {m : ConditionProgram x α}
    (h : IsSound P E satisfied m s) : Admitted P s :=
  Ensures.holds h fun _ _ hresult => hresult.1

theorem unlessInterrupted_sound {next : ConditionProgram x Finding}
    (h : IsSound P E Finding.isSatisfied next s) :
    IsSound P E Finding.isSatisfied (unlessInterrupted next) s := by
  refine ⟨h.admitted, fun a _ => ?_⟩
  obtain ⟨network, accepts, canonical, found, interruption, now, latencyMs⟩ := a
  cases interruption with
  | none => exact h
  | some interruption =>
    refine ⟨h.admitted, fun finding hfinding hsatisfied => ?_⟩
    obtain rfl := Except.ok.inj hfinding
    cases interruption <;> cases hsatisfied

/-- **The guard reports nothing that the operation does not.** -/
theorem watched_sound {operation : ConditionProgram x Finding}
    (h : IsSound P E Finding.isSatisfied operation s) :
    IsSound P E Finding.isSatisfied (watched operation) s := by
  induction operation generalizing s with
  | pure finding => exact h
  | throw error => exact h
  | call k next ih =>
    refine ⟨h.1, fun a ha => ?_⟩
    have hnext := ih _ (h.2 a ha)
    show IsSound P E Finding.isSatisfied (if k.awaits = true then _ else _) _
    split
    · exact unlessInterrupted_sound hnext
    · exact hnext

theorem resultOf_sound {finding : Finding} (hs : Admitted P s) (h : finding.isSatisfied → E s) :
    IsSound P E AdapterResult.isSatisfied (resultOf finding) s := by
  refine ⟨hs, fun a _ => ⟨hs, fun result hresult hsatisfied => ?_⟩⟩
  obtain rfl := Except.ok.inj hresult
  exact h hsatisfied

theorem guarded_sound {operation : ConditionProgram x Finding}
    (h : IsSound P E Finding.isSatisfied operation s) :
    IsSound P E AdapterResult.isSatisfied (guarded operation) s := by
  refine Ensures.bind ((unlessInterrupted_sound (watched_sound h)).mono ?_)
  rintro (error | finding) t ⟨ht, hevidence⟩
  · exact ⟨ht, nofun⟩
  · exact resultOf_sound ht (hevidence finding rfl)

/-! ## The network -/

theorem serveNetwork_append (k : NetworkCall x) (a : Adversary) (t : List (Traffic x)) :
    serveNetwork k a t = ((serveNetwork k a []).1, t ++ (serveNetwork k a []).2) := by
  cases k with
  | lookupHost => rfl
  | send => rfl
  | nextChunk =>
    obtain ⟨addresses, response, chunk⟩ := a
    cases chunk with
    | none => simp [serveNetwork]
    | some chunk => cases chunk <;> simp [serveNetwork]

/-- **What the network ensures, a condition over the network ensures.** -/
theorem overNetwork_ensures {α : Type} {stop : List (Traffic x) → Prop}
    {post : Except AdapterConfigError α → List (Traffic x) → Prop} {m : NetworkProgram x α}
    {t : List (Traffic x)} (h : Ensures (network x) (fun _ => True) stop post m t) :
    Ensures (conditions x) (fun _ => True) (fun s => ∃ t, s = t.map .network ∧ stop t)
      (fun result s => ∃ t, s = t.map .network ∧ post result t) (overNetwork m)
      (t.map .network) := by
  refine Ensures.embed (f := ConditionCall.network)
    (R := fun t s => s = t.map Contact.network) Surroundings.network (fun _ _ => trivial) ?_ rfl h
  rintro k a t s rfl
  show (serveNetwork k a.network []).1.map (fun value => value) = (serveNetwork k a.network t).1 ∧
    t.map Contact.network ++ (serveNetwork k a.network []).2.map Contact.network =
      (serveNetwork k a.network t).2.map Contact.network
  rw [serveNetwork_append k a.network t, List.map_append]
  exact ⟨Option.map_id', rfl⟩

/-- The addresses that a host is resolved to are the answer, and all pass the policy. -/
theorem resolveTarget_ensures (host : String) (port : UInt16) (policy : NetworkPolicy) :
    Ensures (network x) (fun _ => True) (· = []) (fun result t =>
      ∃ answer, t = [Traffic.lookup host port answer] ∧ ∀ addresses, result = .ok addresses →
        answer = some addresses ∧ ∀ a ∈ addresses, validateDestination a.ip policy = .ok ())
      (resolveTarget host port policy : NetworkProgram x (List SocketAddr)) [] := by
  refine Ensures.bind (Ensures.perform (k := NetworkCall.lookupHost host port) rfl
    (fun a addresses _ haddresses => ?_) fun a error herror => ?_)
  case refine_2 =>
    refine ⟨a.addresses, rfl, fun found hfound => ?_⟩
    cases hfound
  have hreply : a.addresses = some addresses := haddresses
  have hafter : (serveNetwork (.lookupHost host port : NetworkCall x) a []).2 =
      [.lookup host port (some addresses)] := by
    simp [serveNetwork, hreply]
  rw [show (network x).serve = serveNetwork from rfl, hafter]
  have hthrown : ∀ error : AdapterConfigError, ∃ answer,
      ([Traffic.lookup host port (some addresses)] : List (Traffic x)) =
        [.lookup host port answer] ∧ ∀ found, Except.error error = .ok found →
          answer = some found ∧ ∀ a ∈ found, validateDestination a.ip policy = .ok () := by
    intro error
    refine ⟨some addresses, rfl, fun found hfound => ?_⟩
    cases hfound
  dsimp only
  split
  · exact hthrown _
  · refine Ensures.bind (Ensures.ofExcept ?_)
    cases hvalid : validateAll policy addresses with
    | error error => exact hthrown _
    | ok =>
      refine ⟨some addresses, rfl, fun found hfound => ?_⟩
      obtain rfl := Except.ok.inj hfound
      exact ⟨rfl, validateAll_ok hvalid⟩

/-! ## TCP -/

section

variable {host : String} {port : UInt16} {policy : NetworkPolicy}

/-- A connection has been accepted. -/
def Accepted (s : List (Contact x)) : Prop := ∃ address, Contact.connect address true ∈ s

theorem connectAny_sound (tried : List SocketAddr) {addresses : List SocketAddr}
    (hs : Admitted (TcpPermits host port policy) s)
    (hlooked : Contact.network (.lookup host port (some (tried ++ addresses))) ∈ s)
    (hvalid : ∀ a ∈ tried ++ addresses, validateDestination a.ip policy = .ok ()) :
    IsSound (TcpPermits host port policy) Accepted Finding.isSatisfied
      (connectAny addresses : ConditionProgram x Finding) s := by
  induction addresses generalizing tried s with
  | nil => exact ⟨hs, fun finding h hsatisfied => by cases h; cases hsatisfied⟩
  | cons address addresses ih =>
    have hpermits : ∀ accepted, TcpPermits host port policy s (.connect address accepted) :=
      fun accepted => .connect address accepted _ hlooked (by simp) hvalid
    refine Ensures.bind (Ensures.attempt (Ensures.perform (k := ConditionCall.connect address) hs
      (fun a _ _ haccepted => ?_) fun a _ hrefused => ?_))
    · have haccepts : a.accepts = true := by
        by_contra hno
        have hreply : (if a.accepts = true then some () else none) = some () := haccepted
        rw [if_neg hno] at hreply
        cases hreply
      refine ⟨hs.snoc (hpermits _), fun _ _ _ => ⟨address, ?_⟩⟩
      show Contact.connect address true ∈ s ++ [.connect address a.accepts]
      rw [haccepts]
      simp
    · have hassoc : tried ++ address :: addresses = (tried ++ [address]) ++ addresses := by simp
      rw [hassoc] at hlooked hvalid
      exact ih _ (hs.snoc (hpermits _)) (List.mem_append_left _ hlooked) hvalid

theorem tcpOperation_sound (target : TcpTarget) :
    IsSound (TcpPermits target.host target.port target.policy) Accepted Finding.isSatisfied
      (tcpOperation target : ConditionProgram x Finding) [] := by
  have hfails : ∀ t : List (Contact x), Admitted (TcpPermits target.host target.port target.policy) t →
      Sound (TcpPermits target.host target.port target.policy) Accepted Finding.isSatisfied
        (.ok (AdapterStatus.error, "Configured target could not be safely resolved.")) t :=
    fun t ht => ⟨ht, fun finding h hsatisfied => by cases h; cases hsatisfied⟩
  refine Ensures.bind (Ensures.attempt ?_)
  have hresolved := overNetwork_ensures
    (resolveTarget_ensures (x := x) target.host target.port target.policy)
  refine Ensures.mono (Ensures.stop_mono hresolved ?_) ?_
  · rintro _ ⟨_, rfl, rfl⟩
    exact .nil
  · rintro result _ ⟨_, rfl, answer, rfl, hanswer⟩
    have hlookup : Admitted (TcpPermits target.host target.port target.policy)
        ([.network (.lookup target.host target.port answer)] : List (Contact x)) :=
      Admitted.snoc .nil (.lookup _)
    cases result with
    | error error => exact hfails _ hlookup
    | ok addresses =>
      obtain ⟨rfl, hvalid⟩ := hanswer addresses rfl
      exact connectAny_sound [] hlookup (List.mem_singleton.mpr rfl) hvalid

end

/-! ## Files -/

section

variable {path : PathBuf} {roots : List PathBuf}

/-- A path was looked at and is there. -/
def Found (s : List (Contact x)) : Prop := ∃ resolved, Contact.metadata resolved true ∈ s

/-- The program resolves only the path and what is above it. -/
theorem closestExistingNow_admitted (names : List (List UInt8)) (hnames : names.reverse <+: path.names)
    (hs : Admitted (FilePermits path roots) s) :
    Ensures (conditions x) (fun _ => True) (Admitted (FilePermits path roots))
      (fun _ => Admitted (FilePermits path roots))
      (closestExistingNow path.absolute names : ConditionProgram x PathBuf) s := by
  induction names generalizing s with
  | nil =>
    refine Ensures.bind (Ensures.perform
      (k := ConditionCall.canonicalizeNow { absolute := path.absolute, names := [] }) hs
      (fun a canonical _ _ => ?_) fun a _ hnone => by cases hnone)
    have hafter := hs.snoc (.canonicalize { absolute := path.absolute, names := [] } a.canonical rfl
      List.nil_prefix)
    cases canonical <;> exact hafter
  | cons name names ih =>
    refine Ensures.bind (Ensures.perform (k := ConditionCall.canonicalizeNow
        { absolute := path.absolute, names := (name :: names).reverse }) hs
      (fun a canonical _ _ => ?_) fun a _ hnone => by cases hnone)
    have hafter := hs.snoc (.canonicalize
      { absolute := path.absolute, names := (name :: names).reverse } a.canonical rfl hnames)
    cases canonical with
    | resolved resolved => exact hafter
    | failed => exact hafter
    | notFound =>
      refine ih ?_ hafter
      rw [List.reverse_cons] at hnames
      exact (List.prefix_append _ _).trans hnames

theorem containedMetadata_sound :
    IsSound (FilePermits path roots) Found (· = true)
      (containedMetadata path roots : ConditionProgram x Bool) [] := by
  refine Ensures.bind (Ensures.perform (k := ConditionCall.canonicalize path) .nil
    (fun a canonical _ hreply => ?_) fun a _ hnone => by cases hnone)
  have hcanonical : a.canonical = canonical := Option.some.inj hreply
  have hafter : Admitted (FilePermits path roots)
      ([.canonicalize path canonical] : List (Contact x)) :=
    Admitted.snoc .nil (.canonicalize path canonical rfl List.prefix_rfl)
  show IsSound _ _ _ _ [.canonicalize path a.canonical]
  rw [hcanonical]
  cases canonical with
  | failed => exact ⟨hafter, nofun⟩
  | resolved resolved =>
    dsimp only
    by_cases hbelow : roots.any resolved.startsWith = true
    · rw [if_pos hbelow]
      have hpermits : ∀ found, FilePermits path roots
          ([.canonicalize path (.resolved resolved)] : List (Contact x)) (.metadata resolved found) :=
        fun found => .metadata resolved found [] rfl (List.any_eq_true.mp hbelow)
      refine Ensures.bind (Ensures.perform (k := ConditionCall.metadata resolved) hafter
        (fun a _ _ hfound => ?_) fun a _ _ => ⟨hafter.snoc (hpermits _), nofun⟩)
      have hthere : a.found = true := by
        by_contra hno
        have hreply : (if a.found = true then some () else none) = some () := hfound
        rw [if_neg hno] at hreply
        cases hreply
      refine ⟨hafter.snoc (hpermits _), fun _ _ _ => ⟨resolved, ?_⟩⟩
      show Contact.metadata resolved true ∈ [_] ++ [.metadata resolved a.found]
      rw [hthere]
      simp
    · rw [if_neg hbelow]
      exact ⟨hafter, nofun⟩
  | notFound =>
    dsimp only
    refine Ensures.bind ((closestExistingNow_admitted path.names.reverse
      (by rw [List.reverse_reverse]) hafter).mono ?_)
    rintro (error | resolved) t ht
    · exact ⟨ht, nofun⟩
    · dsimp only
      split
      · exact ⟨ht, fun _ hresult htrue => by cases hresult; cases htrue⟩
      · exact ⟨ht, nofun⟩

theorem fileOperation_sound (x : UrlCrate) (roots : List PathBuf) (target : FileTarget) :
    IsSound (FilePermits target.path roots) Found Finding.isSatisfied
      (fileOperation target roots : ConditionProgram x Finding) [] := by
  refine Ensures.bind (Ensures.attempt ((containedMetadata_sound (x := x)).mono ?_))
  rintro (error | there) t ⟨ht, hfound⟩
  · exact ⟨ht, fun _ h hsatisfied => by cases h; cases hsatisfied⟩
  · cases there with
    | true => exact ⟨ht, fun _ _ _ => hfound true rfl rfl⟩
    | false => exact ⟨ht, fun _ h hsatisfied => by cases h; cases hsatisfied⟩

end

/-! ## HTTP -/

section

variable {target : HttpTarget x} {t : List (Traffic x)}

/-- Every lookup is of the configured origin. -/
def OwnLookups (target : HttpTarget x) (t : List (Traffic x)) : Prop :=
  ∀ host port answer, Traffic.lookup host port answer ∈ t → origin target.url = .ok (host, port)

/-- A lookup is of the configured origin. -/
def LooksUpOwn (target : HttpTarget x) (k : NetworkCall x) : Prop :=
  ∀ host port, k = .lookupHost host port → origin target.url = .ok (host, port)

theorem looksUpOwn_send (url : x.Url) (addresses : List SocketAddr) :
    LooksUpOwn target (.send url addresses) := by
  intro host port heq
  cases heq

theorem consumeBounded_own (maximum chunks total : Nat) :
    (consumeBounded maximum chunks total : NetworkProgram x Unit).Makes (LooksUpOwn target) := by
  induction chunks generalizing total with
  | zero => trivial
  | succ chunks ih =>
    refine Prog.Makes.bind (Prog.Makes.perform nofun) fun chunk => ?_
    cases chunk with
    | none => trivial
    | some length => exact Prog.Makes.bind Prog.Makes.ofExcept fun total => ih total

theorem judge_own (expectedStatus : Option UInt16) (chunks : Nat) (response : Response) :
    (judge target expectedStatus chunks response).Makes (LooksUpOwn target) := by
  unfold judge
  split
  · trivial
  split
  · trivial
  refine Prog.Makes.bind (consumeBounded_own _ _ _) fun _ => ?_
  cases expectedStatus with
  | none => trivial
  | some expected =>
    dsimp only
    cases statusCode expected <;> trivial

theorem probeFrom_own (expectedStatus : Option UInt16) (chunks rounds redirectCount : Nat)
    (current : x.Url) :
    (probeFrom target expectedStatus chunks rounds redirectCount current).Makes
      (LooksUpOwn target) := by
  induction rounds generalizing redirectCount current with
  | zero => trivial
  | succ rounds ih =>
    unfold probeFrom
    cases horigin : origin target.url with
    | error error => trivial
    | ok original =>
      show Prog.Makes _ ((Prog.ofExcept (origin current)).bind _)
      refine Prog.Makes.bind Prog.Makes.ofExcept fun found => ?_
      obtain ⟨host, port⟩ := found
      dsimp only
      split
      · trivial
      next hsame =>
      rw [not_not] at hsame
      have hown : LooksUpOwn target (.lookupHost host port) := by
        rintro host' port' heq
        cases heq
        rw [horigin, hsame]
      refine Prog.Makes.bind (Prog.Makes.bind (Prog.Makes.perform hown) fun addresses => ?_)
        fun addresses => ?_
      · split
        · trivial
        · exact Prog.Makes.bind Prog.Makes.ofExcept fun _ => trivial
      refine Prog.Makes.bind (Prog.Makes.perform (looksUpOwn_send _ _)) fun response => ?_
      split
      · split
        · trivial
        cases response.location with
        | none => trivial
        | some location => exact Prog.Makes.bind Prog.Makes.ofExcept fun next => ih _ next
      · exact judge_own _ _ _

theorem probe_ownLookups (target : HttpTarget x) (expectedStatus : Option UInt16) (chunks : Nat) :
    Ensures (network x) (fun _ => True) (OwnLookups target) (fun _ => OwnLookups target)
      (probe target expectedStatus chunks) [] := by
  refine Ensures.keep (probeFrom_own expectedStatus chunks _ 0 target.url)
    (fun _ h => h) ?_ nofun
  intro k hk t a _ ht host port answer hmem
  rcases List.mem_append.mp ((congrArg Prod.snd (serveNetwork_append k a t)) ▸ hmem) with hold | hnew
  · exact ht host port answer hold
  · cases k with
    | lookupHost host' port' =>
      obtain ⟨rfl, rfl, -⟩ := Traffic.lookup.inj (List.mem_singleton.mp hnew)
      exact hk _ _ rfl
    | send => cases List.mem_singleton.mp hnew
    | nextChunk =>
      obtain ⟨addresses, response, chunk⟩ := a
      cases chunk with
      | none => cases hnew
      | some chunk =>
        cases chunk with
        | none => cases hnew
        | some length => cases List.mem_singleton.mp hnew

/-- A healthy target has been asked. -/
theorem probe_asks (target : HttpTarget x) (expectedStatus : Option UInt16) (chunks : Nat) :
    Ensures (network x) (fun _ => True) (fun _ => True)
      (fun result t => result = .ok true → 0 < requests t) (probe target expectedStatus chunks)
      ([] : List (Traffic x)) := by
  have hfails : ∀ (error : AdapterConfigError) (t : List (Traffic x)),
      (Except.error error : Except AdapterConfigError Bool) = .ok true → 0 < requests t := nofun
  unfold probe maxRedirects probeFrom
  simp only [Prog.bind_eq]
  cases origin target.url with
  | error error => exact hfails _ _
  | ok original =>
    refine Ensures.bind (Ensures.ofExcept ?_)
    refine Ensures.bind (Ensures.ofExcept ?_)
    obtain ⟨host, port⟩ := original
    dsimp only
    split
    · exact hfails _ _
    refine Ensures.bind ((resolveTarget_ensures host port target.policy).stop_mono
      (fun _ _ => trivial) |>.mono ?_)
    rintro (error | addresses) t -
    · exact hfails _ _
    -- once the request is sent, it stays
    refine Ensures.bind (Ensures.perform (k := NetworkCall.send target.url addresses) trivial
      (fun a response _ _ => ?_) fun _ _ _ => hfails _ _)
    refine Ensures.mono (Ensures.stop_mono (Ensures.keep (P := fun t => 0 < requests t)
      (Prog.makes_any _) (fun _ h => h) ?_ ?_) fun _ _ => trivial) fun _ _ h _ => h
    · intro k _ t a _ ht
      show 0 < requests (serveNetwork k a t).2
      rw [serveNetwork_append, requests_append]
      omega
    · show 0 < requests (t ++ [.request target.url addresses])
      rw [requests_append]
      exact Nat.succ_pos _

/-- What was read of a body. -/
def Contact.bytes : Contact x → Nat
  | .network traffic => traffic.bytes
  | _ => 0

/-- A request was sent, and of the answers no more was read than the bound. -/
def Asked (maximum : Nat) (s : List (Contact x)) : Prop :=
  (∃ destination addresses, Contact.network (.request destination addresses) ∈ s) ∧
    (s.map Contact.bytes).sum ≤ maximum

/-- The traffic of a probe is permitted. -/
theorem admitted_of_contained (hcontained : Contained target t) (hown : OwnLookups target t) :
    Admitted (HttpPermits target.url target.policy) (t.map Contact.network) := by
  intro before contact after hsplit
  obtain ⟨earlier, rest, rfl, rfl, hrest⟩ := List.map_eq_append_iff.mp hsplit
  obtain ⟨traffic, later, rfl, rfl, -⟩ := List.map_eq_cons_iff.mp hrest
  cases traffic with
  | lookup host port answer =>
    exact .lookup host port answer (hown host port answer (by simp))
  | chunk length => exact .chunk length
  | request url addresses =>
    obtain ⟨hhttps, hsame, ⟨before, host, port, horigin, rfl⟩, hvalid⟩ :=
      hcontained.allowed earlier url addresses later rfl
    refine .request url addresses host port (before.map .network) hhttps (hsame ▸ horigin) hsame ?_
      hvalid
    rw [List.map_append]
    rfl

theorem httpOperation_sound (target : HttpTarget x) (expectedStatus : Option UInt16)
    (chunks : Nat) : IsSound (HttpPermits target.url target.policy)
      (Asked target.maxResponseBytes) Finding.isSatisfied
      (httpOperation target expectedStatus chunks) [] := by
  have hprobe : Contains target (Reported target) (probe target expectedStatus chunks) [] := by
    refine contains_probeFrom chunks _ 0 target.url
      ⟨⟨fun before url addresses after hsplit => ?_, Nat.zero_le 4, fun _ => Nat.zero_le 1⟩,
        target.https, rfl, rfl, fun _ => rfl, rfl⟩
    cases before <;> cases hsplit
  have hall := overNetwork_ensures ((Ensures.and hprobe
    (probe_ownLookups target expectedStatus chunks)).and (probe_asks target expectedStatus chunks))
  refine Ensures.bind (Ensures.attempt ((Ensures.stop_mono hall ?_).mono ?_))
  · rintro _ ⟨t, rfl, ⟨hcontained, hown⟩, -⟩
    exact admitted_of_contained hcontained hown
  · rintro result _ ⟨t, rfl, ⟨⟨hcontained, hread⟩, hown⟩, hasked⟩
    have hadmitted := admitted_of_contained hcontained hown
    rcases result with error | healthy
    · exact ⟨hadmitted, fun _ h hsatisfied => by cases h; cases hsatisfied⟩
    cases healthy with
    | false => exact ⟨hadmitted, fun _ h hsatisfied => by cases h; cases hsatisfied⟩
    | true =>
      refine ⟨hadmitted, fun _ _ _ => ⟨?_, ?_⟩⟩
      · obtain ⟨traffic, hmem, hrequest⟩ := List.countP_pos_iff.mp (hasked rfl)
        cases traffic with
        | request url addresses => exact ⟨url, addresses, List.mem_map_of_mem hmem⟩
        | lookup => cases hrequest
        | chunk => cases hrequest
      · have hbytes : (t.map Contact.network).map Contact.bytes = t.map Traffic.bytes := by
          rw [List.map_map]
          rfl
        rw [hbytes]
        exact hread rfl

end

/-! ## Observation windows -/

/-- The clock has been read at the end of the window or later. -/
def Ended (windowEnd : OffsetDateTime) (s : List (Contact x)) : Prop :=
  ∃ now, Contact.clock now ∈ s ∧ windowEnd.utc ≤ now.utc

theorem windowOperation_sound (windowEnd : OffsetDateTime) :
    IsSound (fun _ contact => ∃ now, contact = .clock now) (Ended windowEnd) Finding.isSatisfied
      (windowOperation windowEnd : ConditionProgram x Finding) [] := by
  refine ⟨.nil, fun a _ => ?_⟩
  have hafter : Admitted (fun _ contact => ∃ now, contact = .clock now)
      ([.clock a.now] : List (Contact x)) := Admitted.snoc .nil ⟨a.now, rfl⟩
  show IsSound _ _ _ (if windowEnd.utc ≤ a.now.utc then _ else _) [.clock a.now]
  by_cases hended : windowEnd.utc ≤ a.now.utc
  · rw [if_pos hended]
    exact ⟨hafter, fun _ _ _ => ⟨a.now, List.mem_singleton.mpr rfl, hended⟩⟩
  · rw [if_neg hended]
    exact ⟨hafter, fun _ h hsatisfied => by cases h; cases hsatisfied⟩

end

/-! ## Configurations -/

/-- **What an evaluation with these parameters may contact**, by the configuration of an
adapter that is enabled. -/
def Permits (x : UrlCrate) (files : FileSystem) (config : AdapterConfigView) (parameters : Json)
    (before : List (Contact x)) (contact : Contact x) : Prop :=
  config.enabled = true ∧ match config.configuration with
  | .observationWindowEnded => ∃ now, contact = .clock now
  | .tcpReachable aliases => ∃ name target, textParameter "target" parameters = some name ∧
    aliases.lookup name = some target ∧
      TcpPermits target.host target.port (networkPolicy target.allowPrivate) before contact
  | .httpHealth aliases => ∃ name expected target url,
    httpParameters parameters = some (name, expected) ∧ aliases.lookup name = some target ∧
      x.parse target.url = some url ∧
        HttpPermits url (networkPolicy target.allowPrivate) before contact
  | .fileExists roots aliases => ∃ name path canonical,
    textParameter "path_alias" parameters = some name ∧ aliases.lookup name = some path ∧
      roots.mapM (canonicalRoot files) = .ok canonical ∧ FilePermits path canonical before contact

/-- **What there is to see when a condition is satisfied.** -/
def Evidence (config : AdapterConfigView) (parameters : Json) (s : List (Contact x)) : Prop :=
  config.enabled = true ∧ match config.configuration with
  | .observationWindowEnded => ∃ text windowEnd, textParameter "window_end" parameters = some text ∧
    parseTimestamp text = .ok windowEnd ∧ Ended windowEnd s
  | .tcpReachable _ => Accepted s
  | .httpHealth aliases => ∃ name expected target,
    httpParameters parameters = some (name, expected) ∧ aliases.lookup name = some target ∧
      Asked target.maxResponseBytes s
  | .fileExists _ _ => Found s

section

variable {P P' : List (Contact x) → Contact x → Prop} {E E' : List (Contact x) → Prop}
  {s : List (Contact x)} {files : FileSystem} {parameters : Json}

theorem IsSound.mono {α : Type} {satisfied : α → Prop} {m : ConditionProgram x α}
    (h : IsSound P E satisfied m s) (hP : ∀ before contact, P before contact → P' before contact)
    (hE : ∀ t, E t → E' t) : IsSound P' E' satisfied m s :=
  Ensures.stop_mono (Ensures.mono h fun _ _ hsound =>
    ⟨hsound.1.mono hP, fun a ha hsatisfied => hE _ (hsound.2 a ha hsatisfied)⟩) fun _ ht => ht.mono hP

/-- A report that contacts nothing. -/
theorem report_sound {finding : Finding} (h : finding.1 ≠ .satisfied) :
    IsSound P E AdapterResult.isSatisfied (resultOf finding) [] :=
  resultOf_sound .nil fun hsatisfied => absurd hsatisfied h

theorem withAlias_sound {τ : Type} {aliases : List (String × τ)} {name missing : String}
    {found : τ → ConditionProgram x AdapterResult}
    (h : ∀ target, aliases.lookup name = some target →
      IsSound P E AdapterResult.isSatisfied (found target) []) :
    IsSound P E AdapterResult.isSatisfied (withAlias aliases name missing found) [] := by
  unfold withAlias
  split
  · exact report_sound (by decide)
  · cases hlookup : aliases.lookup name with
    | none => exact report_sound (by nofun)
    | some target => exact h target hlookup

/-- The target under an alias was built of what is configured under it. -/
theorem targetsOf_lookup {α β : Type} {build : α → Except AdapterConfigError β}
    {aliases : List (String × α)} {targets : List (String × β)}
    (h : targetsOf build aliases = .ok targets) {name : String} {target : β}
    (hlookup : targets.lookup name = some target) :
    ∃ configured, aliases.lookup name = some configured ∧ build configured = .ok target := by
  have hall := forall₂_of_mapM_ok h
  clear h
  induction hall with
  | nil => cases hlookup
  | @cons entry target' aliases targets hentry _ ih =>
    obtain ⟨key, configured⟩ := entry
    dsimp only at hentry
    cases hbuilt : build configured with
    | error error =>
      rw [hbuilt] at hentry
      cases hentry
    | ok built =>
      rw [hbuilt] at hentry
      obtain rfl := Except.ok.inj hentry
      rw [List.lookup_cons] at hlookup ⊢
      by_cases hname : name = key
      · subst hname
        rw [beq_self_eq_true] at hlookup ⊢
        obtain rfl := Option.some.inj hlookup
        exact ⟨configured, rfl, hbuilt⟩
      · rw [beq_false_of_ne hname] at hlookup ⊢
        exact ih hlookup

theorem tcpTarget_eq {host : String} {port : UInt16} {policy : NetworkPolicy} {target : TcpTarget}
    (h : TcpTarget.new host port policy = .ok target) :
    target.host = host ∧ target.port = port ∧ target.policy = policy := by
  unfold TcpTarget.new at h
  split at h
  · obtain rfl := Except.ok.inj h
    exact ⟨rfl, rfl, rfl⟩
  · cases h

theorem httpTarget_eq {configured : HttpAliasConfiguration} {policy : NetworkPolicy}
    {target : HttpTarget x}
    (h : HttpTarget.new x configured.url configured.expectedStatuses configured.maxResponseBytes
      configured.expectedContentType configured.allowRedirects policy = .ok target) :
    x.parse configured.url = some target.url ∧ target.policy = policy ∧
      target.maxResponseBytes = configured.maxResponseBytes := by
  unfold HttpTarget.new at h
  cases hurl : x.parse configured.url with
  | none =>
    rw [hurl] at h
    cases h
  | some url =>
    rw [hurl] at h
    dsimp only at h
    split at h
    · obtain rfl := Except.ok.inj h
      exact ⟨rfl, rfl, rfl⟩
    · cases h

/-- **Every adapter that is built of a configuration is sound by it.** -/
theorem evaluate_sound {config : AdapterConfigView} {name : String} {adapter : Adapter x}
    (h : buildAdapter x files config = .ok (name, adapter)) (chunks : Nat) :
    IsSound (Permits x files config parameters) (Evidence config parameters)
      AdapterResult.isSatisfied (evaluate chunks parameters adapter) [] := by
  obtain ⟨adapterName, enabled, configuration, version, updatedAt, updatedBy⟩ := config
  obtain ⟨_, -, h⟩ := except_bind_ok.mp h
  dsimp only at h
  have hdisabled : ∀ P : List (Contact x) → Contact x → Prop, ∀ E,
      IsSound P E AdapterResult.isSatisfied isDisabled [] := fun _ _ => report_sound (by decide)
  have hinvalid : ∀ P : List (Contact x) → Contact x → Prop, ∀ E,
      IsSound P E AdapterResult.isSatisfied invalidParameters [] :=
    fun _ _ => report_sound (by decide)
  cases configuration with
  | observationWindowEnded =>
    obtain ⟨-, rfl⟩ := Prod.mk.inj (Except.ok.inj h)
    unfold evaluate
    cases enabled with
    | false => exact hdisabled _ _
    | true =>
      dsimp only [Bool.not_true, Bool.false_eq_true, if_false]
      cases htext : textParameter "window_end" parameters with
      | none => exact hinvalid _ _
      | some text =>
        dsimp only [Option.bind]
        cases hparsed : parseTimestamp text with
        | error error => exact hinvalid _ _
        | ok windowEnd =>
          exact (guarded_sound (windowOperation_sound windowEnd)).mono
            (fun _ _ hclock => ⟨rfl, hclock⟩)
            fun _ hended => ⟨rfl, text, windowEnd, htext, hparsed, hended⟩
  | tcpReachable aliases =>
    obtain ⟨targets, htargets, h⟩ := except_bind_ok.mp h
    obtain ⟨_, -, h⟩ := except_bind_ok.mp h
    obtain ⟨-, rfl⟩ := Prod.mk.inj (Except.ok.inj h)
    unfold evaluate
    cases enabled with
    | false => exact hdisabled _ _
    | true =>
      dsimp only [Bool.not_true, Bool.false_eq_true, if_false]
      cases htext : textParameter "target" parameters with
      | none => exact hinvalid _ _
      | some name =>
        refine withAlias_sound fun target hlookup => ?_
        obtain ⟨configured, hconfigured, hbuilt⟩ := targetsOf_lookup htargets hlookup
        obtain ⟨hhost, hport, hpolicy⟩ := tcpTarget_eq hbuilt
        have hsound := guarded_sound (tcpOperation_sound (x := x) target)
        rw [hhost, hport, hpolicy] at hsound
        exact hsound.mono
          (fun _ _ hpermits => ⟨rfl, name, configured, htext, hconfigured, hpermits⟩)
          fun _ haccepted => ⟨rfl, haccepted⟩
  | httpHealth aliases =>
    obtain ⟨targets, htargets, h⟩ := except_bind_ok.mp h
    obtain ⟨_, -, h⟩ := except_bind_ok.mp h
    obtain ⟨-, rfl⟩ := Prod.mk.inj (Except.ok.inj h)
    unfold evaluate
    cases enabled with
    | false => exact hdisabled _ _
    | true =>
      dsimp only [Bool.not_true, Bool.false_eq_true, if_false]
      cases hparameters : httpParameters parameters with
      | none => exact hinvalid _ _
      | some found =>
        obtain ⟨name, expected⟩ := found
        refine withAlias_sound fun target hlookup => ?_
        split
        · exact hinvalid _ _
        obtain ⟨configured, hconfigured, hbuilt⟩ := targetsOf_lookup htargets hlookup
        obtain ⟨hurl, hpolicy, hmaximum⟩ := httpTarget_eq hbuilt
        have hsound := guarded_sound (httpOperation_sound target expected chunks)
        rw [hpolicy, hmaximum] at hsound
        exact hsound.mono
          (fun _ _ hpermits =>
            ⟨rfl, name, expected, configured, target.url, hparameters, hconfigured, hurl, hpermits⟩)
          fun _ hasked => ⟨rfl, name, expected, configured, hparameters, hconfigured, hasked⟩
  | fileExists roots aliases =>
    obtain ⟨targets, htargets, h⟩ := except_bind_ok.mp h
    obtain ⟨canonical, hcanonical, h⟩ := except_bind_ok.mp h
    obtain ⟨_, -, h⟩ := except_bind_ok.mp h
    obtain ⟨_, -, h⟩ := except_bind_ok.mp h
    obtain ⟨-, rfl⟩ := Prod.mk.inj (Except.ok.inj h)
    unfold evaluate
    cases enabled with
    | false => exact hdisabled _ _
    | true =>
      dsimp only [Bool.not_true, Bool.false_eq_true, if_false]
      cases htext : textParameter "path_alias" parameters with
      | none => exact hinvalid _ _
      | some name =>
        refine withAlias_sound fun target hlookup => ?_
        obtain ⟨configured, hconfigured, hbuilt⟩ := targetsOf_lookup htargets hlookup
        have hpath := fileTarget_eq hbuilt
        have hsound := guarded_sound (fileOperation_sound x canonical target)
        rw [hpath] at hsound
        exact hsound.mono
          (fun _ _ hpermits => ⟨rfl, name, configured, canonical, htext, hconfigured,
            except_mapError_ok.mp hcanonical, hpermits⟩)
          fun _ hfound => ⟨rfl, hfound⟩

end

/-! ## The scheduler -/

/-- What an evaluation does with the snapshot of these configurations. -/
structure Confined (x : UrlCrate) (files : FileSystem) (configs : List AdapterConfigView)
    (candidate : Remindi) (contacts : List (Contact x))
    (result : Option (Except AdapterConfigError (Option AdapterResult))) : Prop where
  /-- Each contact is permitted by the configuration of the adapter that is named. -/
  permitted : ∀ before contact after, contacts = before ++ contact :: after →
    ∃ name parameters poll manual, candidate.trigger = .condition name parameters poll manual ∧
      ∃ config ∈ configs, config.adapterName = name ∧ Permits x files config parameters before contact
  /-- A satisfied condition has evidence. -/
  evident : ∀ found, result = some (.ok (some found)) → found.status = .satisfied →
    ∃ name parameters poll manual, candidate.trigger = .condition name parameters poll manual ∧
      ∃ config ∈ configs, config.adapterName = name ∧ Evidence config parameters contacts

theorem snapshot_lookup {files : FileSystem} {configs : List AdapterConfigView}
    {snapshot : AdapterSnapshot x} (h : buildSnapshot x files configs = .ok snapshot) {name : String}
    {adapter : Adapter x} (hlookup : snapshot.lookup name = some adapter) :
    ∃ config ∈ configs, config.adapterName = name ∧
      buildAdapter x files config = .ok (name, adapter) := by
  obtain ⟨adapters, hadapters, h⟩ := except_bind_ok.mp h
  split at h
  · obtain rfl := Except.ok.inj h
    have hmem : (name, adapter) ∈ adapters := by
      obtain ⟨before, after, rfl, -⟩ := List.lookup_eq_some_iff.mp hlookup
      exact List.mem_append_right before List.mem_cons_self
    obtain ⟨config, hconfig, hbuilt⟩ := mem_of_mapM_ok hadapters hmem
    exact ⟨config, hconfig, (buildAdapter_name hbuilt).symm, hbuilt⟩
  · cases h

/-- **The containment of conditions.**  The snapshot is the one of the stored rows; the
answers are those of an adversary, and the evaluation may be cancelled, time out or be
stopped at any call. -/
theorem condition_confined {files : FileSystem} {rows : List AdapterRow}
    {configs : List AdapterConfigView} {snapshot : AdapterSnapshot x}
    (hload : loadAdapters x files rows = .ok (configs, snapshot)) (chunks : Nat)
    (candidate : Remindi) (answers : List Surroundings) :
    Confined x files configs candidate
      (run (conditions x) (answers.map .answer) (.start [])
        (evaluateCondition snapshot chunks candidate)).1.state
      (run (conditions x) (answers.map .answer) (.start [])
        (evaluateCondition snapshot chunks candidate)).2 := by
  have hbuild := (loadAdapters_ok.mp hload).2
  have hquiet : ∀ result, (∀ found, result = some (.ok (some found)) → found.status ≠ .satisfied) →
      Confined x files configs candidate [] result := by
    intro result hunsatisfied
    refine ⟨fun before contact after hsplit => ?_, fun found hfound hsatisfied => ?_⟩
    · cases before <;> cases hsplit
    · exact (hunsatisfied found hfound hsatisfied).elim
  have hpure : ∀ result : Option AdapterResult, (∀ found, result = some found →
      found.status ≠ .satisfied) → Confined x files configs candidate
        (run (conditions x) (answers.map .answer) (.start [])
          (.pure result : ConditionProgram x (Option AdapterResult))).1.state
        (run (conditions x) (answers.map .answer) (.start [])
          (.pure result : ConditionProgram x (Option AdapterResult))).2 := by
    intro result hresult
    have hrun : run (conditions x) (answers.map .answer) (.start [])
        (.pure result : ConditionProgram x (Option AdapterResult)) =
          (.start [], some (.ok result)) := by
      cases answers <;> rfl
    rw [hrun]
    exact hquiet _ fun found hfound => hresult found (Except.ok.inj (Option.some.inj hfound))
  cases htrigger : candidate.trigger with
  | condition name parameters poll manual =>
    cases hlookup : snapshot.lookup name with
    | none =>
      unfold evaluateCondition
      rw [htrigger]
      dsimp only
      rw [hlookup]
      exact hpure _ fun found hfound => by cases hfound; nofun
    | some adapter =>
      obtain ⟨config, hconfig, hname, hbuilt⟩ := snapshot_lookup hbuild hlookup
      have hsound : IsSound (Permits x files config parameters) (Evidence config parameters)
          (fun result : Option AdapterResult => ∃ found, result = some found ∧ found.isSatisfied)
          (evaluateCondition snapshot chunks candidate) [] := by
        unfold evaluateCondition
        rw [htrigger]
        dsimp only
        rw [hlookup]
        refine Ensures.bind (Ensures.mono (evaluate_sound hbuilt chunks) ?_)
        rintro (error | found) t ⟨ht, hevidence⟩
        · exact ⟨ht, nofun⟩
        · refine ⟨ht, fun result hresult hsatisfied => ?_⟩
          obtain rfl := Except.ok.inj hresult
          obtain ⟨found', hfound, hsatisfied⟩ := hsatisfied
          obtain rfl := Option.some.inj hfound
          exact hevidence _ rfl hsatisfied
      have hrun := hsound.run answers fun _ _ => trivial
      have hadmitted : Admitted (Permits x files config parameters) (run (conditions x)
          (answers.map .answer) (.start []) (evaluateCondition snapshot chunks candidate)).1.state := by
        cases hresult : (run (conditions x) (answers.map .answer) (.start [])
            (evaluateCondition snapshot chunks candidate)).2 with
        | none => exact hrun.2 hresult
        | some result => exact (hrun.1 result hresult).1
      refine ⟨fun before contact after hsplit => ?_, fun found hfound hsatisfied => ?_⟩
      · exact ⟨name, parameters, poll, manual, htrigger, config, hconfig, hname,
          hadmitted before contact after hsplit⟩
      · exact ⟨name, parameters, poll, manual, htrigger, config, hconfig, hname,
          (hrun.1 _ hfound).2 _ rfl ⟨found, rfl, hsatisfied⟩⟩
  | _ =>
    unfold evaluateCondition
    rw [htrigger]
    exact hpure none nofun

namespace Sample

/-- One TCP target, which is enabled. -/
def reachable : AdapterConfiguration :=
  .tcpReachable [("db", { host := "db.example", port := 5432, allowPrivate := false })]

def row (name : String) (configJson : ConfigJson) : AdapterRow where
  adapterName := name
  enabled := true
  configJson := configJson
  version := 1
  updatedAt := ""
  updatedBy := "web:owner"

def rows : List AdapterRow :=
  [row "file_exists" .empty, row "http_health" .empty, row "observation_window_ended" .empty,
    row "tcp_reachable" (.written reachable)]

def everyPath : FileSystem := fun path => .resolved path

def config (name : String) (configuration : AdapterConfiguration) : AdapterConfigView where
  adapterName := name
  enabled := true
  configuration := configuration
  version := 1
  updatedAt := ""
  updatedBy := "web:owner"

def configs : List AdapterConfigView :=
  [config "file_exists" (.fileExists [] []), config "http_health" (.httpHealth []),
    config "observation_window_ended" .observationWindowEnded, config "tcp_reachable" reachable]

def database : TcpTarget where
  host := "db.example"
  port := 5432
  policy := .publicOnly
  valid := by decide +kernel

def snapshot : AdapterSnapshot Admin.Sample.noUrls :=
  [("file_exists", .file true [] []), ("http_health", .http true []),
    ("observation_window_ended", .observationWindow true), ("tcp_reachable", .tcp true [("db", database)])]

def instant : OffsetDateTime := { utc := 1000000000000, offset := 0 }

def waiting : Remindi where
  id := RemindiCore.Sample.uuid 0
  ownerId := "owner"
  projectId := "project"
  taskId := none
  message := "message"
  instructions := none
  state := .scheduled
  priority := .normal
  trigger := .condition "tcp_reachable" (.object [("target", .string "db")]) none none
  recurrence := none
  nextFireAt := none
  nextEvaluationAt := some instant
  originalNextFireAt := none
  dueSince := none
  snoozeUntil := none
  snoozedFromState := none
  overdueAfterSeconds := 600
  occurrenceNo := 1
  sourceSessionId := none
  sourceTaskLineageId := none
  lastCheckedAt := none
  lastConditionStatus := none
  lastConditionDetail := none
  snoozeCount := 0
  version := 1
  createdAt := instant
  updatedAt := instant
  completedAt := none
  cancelledAt := none

/-- The database is at a public address and listens. -/
def listening : Surroundings where
  network := { addresses := some [⟨.v4 ⟨203, 0, 113, 7⟩, 5432⟩], response := none, chunk := none }
  accepts := true
  canonical := .notFound
  found := false
  interruption := none
  now := instant
  latencyMs := 3

end Sample

theorem sample_load : loadAdapters Admin.Sample.noUrls Sample.everyPath Sample.rows =
    .ok (Sample.configs, Sample.snapshot) := by
  with_unfolding_all rfl

theorem sample_condition_confined :
    Confined Admin.Sample.noUrls Sample.everyPath Sample.configs Sample.waiting
        (run (conditions Admin.Sample.noUrls) ((List.replicate 6 Sample.listening).map .answer)
          (.start []) (evaluateCondition Sample.snapshot 0 Sample.waiting)).1.state
        (run (conditions Admin.Sample.noUrls) ((List.replicate 6 Sample.listening).map .answer)
          (.start []) (evaluateCondition Sample.snapshot 0 Sample.waiting)).2 ∧
      (run (conditions Admin.Sample.noUrls) ((List.replicate 6 Sample.listening).map .answer)
        (.start []) (evaluateCondition Sample.snapshot 0 Sample.waiting)).2 = some (.ok (some
          { status := .satisfied
            observedAt := Sample.instant
            summary := "Configured target accepted a TCP connection."
            metadata := { adapterVersion := "1.0.0", latencyMs := 3 } })) := by
  refine ⟨condition_confined sample_load 0 Sample.waiting
    (List.replicate 6 Sample.listening), ?_⟩
  with_unfolding_all rfl

end RemindiCore.Triggers

import DistributedVector.Proofs.Exchange
import DistributedVector.Proofs.Interleaving
import DistributedVector.Proofs.Places

/-!
# What commands leave alone

A command stores at the places that it names, and nowhere else. So an element stays as it is as long
as no command that is accepted stores at its place. A command moreover needs no buffers but those
that it names: what may be asked for where some buffers are missing may be asked for where they are
there, does the same, and names none of them.

## Main definitions

* `Call.StoresAt` — the places at which a command stores
* `Memory.without` — a memory from which buffers are taken away

## Main results

* `Program.Ensures.element_eq` — elements at whose places nothing is stored stay
* `Program.Ensures.not_names` — a program that may run without some buffers names none of them
-/

namespace DistributedVector

variable {V : Type} {A : Arithmetic V} {suits : DeviceId → KernelSource → Int → Prop} {c : Call}
  {r : c.Reply} {m m' m₀ : Memory} {q : Place} {α σ : Type} {h : Handler σ}
  {view : σ → Memory} {x : σ}

/-- The places at which a command stores; a launch stores in all of its target. -/
def Call.StoresAt (q : Place) : Call → Prop
  | .write device b offset _ data => q ∈ Place.row device b offset data.size
  | .copy device _ target count _ offset => q ∈ Place.row device target offset count
  | .launch _ _ _ _ args => args[1]? = some (.buffer q.buffer)
  | _ => False

namespace Memory

/-- A place with its element. -/
def HasAt (m : Memory) (q : Place) (value : Option Scalar) : Prop :=
  q.Inside m ∧ m.element q = value

theorem hasAt_setBuffer {id : BufferId} {buf : Buffer} {data : Array Scalar} {value : Option Scalar}
    (hq : m.HasAt q value) (hbuf : m.buffer id = some buf) (hsize : data.size = buf.data.size)
    (hkeeps : q.buffer = some id → data[q.position.toNat]? = buf.data[q.position.toNat]?) :
    (m.setBuffer id { buf with data }).HasAt q value := by
  obtain ⟨⟨b, buf', hb, hbuf', hdevice, hlower, hupper⟩, rfl⟩ := hq
  rcases eq_or_ne b id with rfl | hne
  · obtain rfl := Option.some_inj.mp (hbuf.symm.trans hbuf')
    refine ⟨⟨b, _, hb, setBuffer_buffer_self _ _ _, hdevice, hlower, hsize.symm ▸ hupper⟩, ?_⟩
    simp [element, hb, hbuf, hkeeps hb]
  · have hsame := setBuffer_buffer_of_ne m { buf with data } hne
    refine ⟨⟨b, buf', hb, hsame.trans hbuf', hdevice, hlower, hupper⟩, ?_⟩
    simp [element, hb, hsame]

/-- What a command has stored leaves the elements at other places alone. -/
theorem Stored.hasAt {target : Option BufferId} {e : Event} {intended : Buffer → List Scalar → Prop}
    {id : BufferId} {buf : Buffer} {value : Option Scalar}
    (hstored : m.Stored target (.ok e : Except DeviceFault Event) intended m')
    (htarget : target = some id) (hbuf : m.buffer id = some buf) (hq : m.HasAt q value)
    (hkeeps : ∀ xs, intended buf xs → q.buffer = some id →
      xs[q.position.toNat]? = buf.data.toList[q.position.toNat]?) : m'.HasAt q value := by
  obtain ⟨data, hsize, rfl, hintended⟩ := hstored id buf htarget hbuf
  refine hasAt_setBuffer hq hbuf hsize fun hb => ?_
  rw [← Array.getElem?_toList, ← Array.getElem?_toList]
  exact hkeeps _ (hintended e rfl) hb

/-- Elements that are laid over others elsewhere do not change an element. -/
theorem Span.overlay_eq {device : DeviceId} {b : Option BufferId} {offset : Int}
    {values : List Scalar} {id : BufferId} {buf : Buffer}
    (hspan : m.Span device b offset values.length id buf) (hq : q.Inside m)
    (hrow : q ∉ Place.row device b offset values.length)
    (hb : q.buffer = some id) : (overlay offset.toNat values buf.data.toList)[q.position.toNat]? =
      buf.data.toList[q.position.toNat]? := by
  obtain ⟨b', buf', hb', hbuf', hdevice, hlower, -⟩ := hq
  obtain rfl : b' = id := Option.some_inj.mp (hb'.symm.trans hb)
  obtain rfl := Option.some_inj.mp (hspan.present.symm.trans hbuf')
  have hout : ¬ (offset ≤ q.position ∧ q.position < offset + values.length) := fun hin =>
    hrow (Place.mem_row.mpr ⟨hdevice.symm.trans hspan.owned, hb.trans hspan.named.symm, hin⟩)
  have := hspan.lower
  rw [overlay, getElem?_revise, placed_outside (by omega)]
  simp

/-- A command that is refused changes nothing, and one that is accepted only what it stores. -/
theorem Effect.hasAt {value : Option Scalar} (hpermits : Permits suits c m)
    (heffect : Effect A c m r m') (hfailed : Exchange.fault? ⟨c, r⟩ ≠ none → m' = m)
    (hnot : Exchange.fault? ⟨c, r⟩ = none → ¬ c.StoresAt q) (hq : m.HasAt q value) :
    m'.HasAt q value := by
  cases c with
  | allocate device size type access =>
    cases r with
    | error e => exact hfailed (Option.some_ne_none e) ▸ hq
    | ok b =>
      obtain ⟨hnew, rfl⟩ := heffect
      obtain ⟨⟨b', buf, hb', hbuf, hinside⟩, rfl⟩ := hq
      -- a place is in a buffer that is there, not in the one that is added
      have hne : b' ≠ b := by
        rintro rfl
        cases hnew.symm.trans hbuf
      have hsame :=
        setBuffer_buffer_of_ne m ⟨device, type, access, Array.replicate size type.zero⟩ hne
      exact ⟨⟨b', buf, hb', hsame.trans hbuf, hinside⟩, by simp [element, hb', hsame]⟩
  | write device b offset shape data =>
    cases r with
    | error e => exact hfailed (Option.some_ne_none e) ▸ hq
    | ok e =>
      obtain ⟨-, id, buf, hspan⟩ := hpermits
      have hstored : m.Stored b (.ok e : Except DeviceFault Event)
          (fun buf xs => xs = overlay offset.toNat data.toList buf.data.toList) m' := heffect
      refine hstored.hasAt hspan.named hspan.present hq ?_
      rintro xs rfl
      exact hspan.overlay_eq hq.1 (hnot rfl)
  | read device b offset count cell cellOffset =>
    cases r with
    | error e => exact hfailed (Option.some_ne_none e) ▸ hq
    | ok e =>
      obtain ⟨⟨id, buf, hspan⟩, a, ha, -⟩ := hpermits
      obtain ⟨a', -, rfl, -⟩ := heffect id buf a hspan.named hspan.present ha
      exact hq
  | copy device source target count sourceOffset targetOffset =>
    cases r with
    | error e => exact hfailed (Option.some_ne_none e) ▸ hq
    | ok e =>
      obtain ⟨id, buf, id', buf', hsource, htarget, -⟩ := hpermits
      have hlength : ((buf.data.toList.drop sourceOffset.toNat).take count).length = count := by
        have := hsource.room
        rw [List.length_take, List.length_drop, Array.length_toList]
        omega
      have hstored : m.Stored target (.ok e : Except DeviceFault Event) _ m' :=
        heffect id buf hsource.named hsource.present
      refine hstored.hasAt htarget.named htarget.present hq ?_
      rintro xs rfl
      rw [← hlength] at htarget
      refine htarget.overlay_eq hq.1 ?_
      rw [hlength]
      exact hnot rfl
  | launch device source grid workgroup args =>
    cases r with
    | error e => exact hfailed (Option.some_ne_none e) ▸ hq
    | ok e =>
      obtain ⟨-, target, buf, rest, rfl, hrun⟩ := hpermits
      have hstored : m.Stored (some target) (.ok e : Except DeviceFault Event) _ m' := heffect
      -- a launch stores at all places of its result, so the place is in another buffer
      refine hstored.hasAt rfl hrun.present hq fun xs _ hb => ?_
      exact absurd (congrArg (fun b => some (Argument.buffer b)) hb.symm) (hnot rfl)
  | hostArray count type =>
    obtain ⟨-, a, -, rfl⟩ := heffect
    exact hq
  | hostContents cell offset count => exact heffect.1 ▸ hq
  | build | wait | synchronize | clock | report | multiply =>
    obtain rfl : m' = m := heffect
    exact hq

end Memory

/-- Elements at whose places no accepted command of a run stores stay, on devices that leave their
memory alone when a command fails. -/
theorem Program.Ensures.element_eq (meets : h.Meets view (deviceContract A suits))
    (gentle : h.Gentle view) {p : Program α} {good : α → Memory → Prop}
    (hp : p.Ensures (deviceContract A suits) good (view x)) (hq : q.Inside (view x))
    (hnot : ∀ y ∈ p.exchanges h x, y.fault? = none → ¬ y.1.StoresAt q) :
    (view (p.run h x).2).element q = (view x).element q := by
  -- the place has to be carried along, since its buffer must stay for the element to stay
  suffices hrun : ∀ e, (view x).HasAt q e → (view (p.run h x).2).HasAt q e from (hrun _ ⟨hq, rfl⟩).2
  intro e he
  clear hq
  induction p generalizing x with
  | pure a => exact he
  | call c next ih =>
    refine ih _ (hp.2 _ _ (meets c x hp.1)) (fun y hy => hnot y (List.mem_cons_of_mem _ hy)) ?_
    exact Memory.Effect.hasAt hp.1 (meets c x hp.1) (gentle c x) (hnot _ List.mem_cons_self) he

namespace Memory

/-- A memory without the buffers that are in another one. -/
def without (m m₀ : Memory) : Memory :=
  { m with buffer := fun b => if (m₀.buffer b).isSome then none else m.buffer b }

theorem buffer_without {b : BufferId} {buf : Buffer} :
    (m.without m₀).buffer b = some buf ↔ m₀.buffer b = none ∧ m.buffer b = some buf := by
  cases hb : m₀.buffer b <;> simp [without, hb]

theorem buffer_without_eq_none {b : BufferId} (hb : m.buffer b = none) :
    (m.without m₀).buffer b = none := by
  simp [without, hb]

theorem without_setBuffer {b : BufferId} {buf : Buffer} (hb : m₀.buffer b = none) :
    (m.setBuffer b buf).without m₀ = (m.without m₀).setBuffer b buf := by
  refine Memory.ext (funext fun b' => ?_) rfl
  rcases eq_or_ne b' b with rfl | hne
  · simp [without, hb]
  · simp [without, setBuffer, hne]

theorem Span.of_without {device : DeviceId} {b : Option BufferId} {offset : Int} {count : Nat}
    {id : BufferId} {buf : Buffer} (hspan : (m.without m₀).Span device b offset count id buf) :
    m₀.buffer id = none ∧ m.Span device b offset count id buf :=
  ⟨(buffer_without.mp hspan.present).1,
    { hspan with present := (buffer_without.mp hspan.present).2 }⟩

theorem Fits.of_without {device : DeviceId} {n : Nat} {p : Parameter} {arg : Argument}
    (hfits : (m.without m₀).Fits device n p arg) :
    (∀ b, arg = .buffer (some b) → m₀.buffer b = none) ∧ m.Fits device n p arg := by
  cases arg with
  | scalar t value => exact ⟨nofun, hfits⟩
  | buffer b =>
    obtain ⟨hkind, id, buf, rfl, hbuf, hrest⟩ := hfits
    obtain ⟨hnone, hbuf⟩ := buffer_without.mp hbuf
    refine ⟨?_, hkind, id, buf, rfl, hbuf, hrest⟩
    rintro _ ⟨⟩
    exact hnone

/-- What may be asked for without some buffers names none of them, and may be asked for with
them. -/
theorem Permits.of_without (hpermits : Permits suits c (m.without m₀)) :
    (∀ b, c.Names b → m₀.buffer b = none) ∧ Permits suits c m := by
  cases c with
  | write =>
    obtain ⟨hshape, id, buf, hspan⟩ := hpermits
    obtain ⟨hnone, hspan'⟩ := hspan.of_without
    refine ⟨fun b hb => ?_, hshape, id, buf, hspan'⟩
    cases hb.symm.trans hspan.named
    exact hnone
  | read =>
    obtain ⟨⟨id, buf, hspan⟩, hcell⟩ := hpermits
    obtain ⟨hnone, hspan'⟩ := hspan.of_without
    refine ⟨fun b hb => ?_, ⟨id, buf, hspan'⟩, hcell⟩
    cases hb.symm.trans hspan.named
    exact hnone
  | copy =>
    obtain ⟨id, buf, id', buf', hsource, htarget, hne⟩ := hpermits
    obtain ⟨hnone, hsource'⟩ := hsource.of_without
    obtain ⟨hnone', htarget'⟩ := htarget.of_without
    refine ⟨fun b hb => ?_, id, buf, id', buf', hsource', htarget', hne⟩
    rcases hb with hb | hb
    · cases hb.symm.trans hsource.named
      exact hnone
    · cases hb.symm.trans htarget.named
      exact hnone'
  | launch device =>
    obtain ⟨hsuits, target, buf, rest, rfl, hrun⟩ := hpermits
    obtain ⟨hnone, hbuf⟩ := buffer_without.mp hrun.present
    refine ⟨fun b hb => ?_, hsuits, target, buf, rest, rfl, hbuf, hrun.owned, hrun.writable,
      hrun.result, hrun.arguments.imp fun _ _ hfits => hfits.of_without.2⟩
    -- an argument of the kernel, or the result
    rcases List.mem_cons.mp hb with hb | hb
    · cases hb
    rcases List.mem_cons.mp hb with hb | hb
    · cases hb
      exact hnone
    · obtain ⟨k, hk⟩ := List.getElem?_of_mem hb
      obtain ⟨p, -, hfits⟩ := getElem?_of_forall₂ hrun.arguments.flip hk
      have hfits' : (m.without m₀).Fits device buf.data.size p (.buffer (some b)) := hfits
      exact hfits'.of_without.1 b rfl
  | _ => exact ⟨fun _ => False.elim, hpermits⟩

/-- All buffers of a memory are there. -/
def Includes (m m₀ : Memory) : Prop := ∀ b, m.buffer b = none → m₀.buffer b = none

theorem Includes.refl (m : Memory) : m.Includes m := fun _ h => h

theorem Includes.trans {m'' : Memory} (h : m''.Includes m') (h' : m'.Includes m) : m''.Includes m :=
  fun b hb => h' b (h b hb)

theorem includes_setBuffer {b : BufferId} {buf : Buffer} : (m.setBuffer b buf).Includes m := by
  intro b' hb'
  rcases eq_or_ne b' b with rfl | hne
  · cases (setBuffer_buffer_self m b' buf).symm.trans hb'
  · exact (setBuffer_buffer_of_ne m buf hne).symm.trans hb'

theorem Stored.includes {β : Type} {r : Except DeviceFault β} {target : Option BufferId}
    {intended : Buffer → List Scalar → Prop} {id : BufferId} {buf : Buffer}
    (hstored : m.Stored target r intended m') (htarget : target = some id)
    (hbuf : m.buffer id = some buf) : m'.Includes m := by
  obtain ⟨data, -, rfl, -⟩ := hstored id buf htarget hbuf
  exact includes_setBuffer

/-- No command loses a buffer. -/
theorem Effect.includes (hpermits : Permits suits c m) (heffect : Effect A c m r m') :
    m'.Includes m := by
  -- commands store into buffers that are there, and only an allocation adds one
  cases c with
  | allocate =>
    cases r with
    | error e =>
      obtain rfl : m' = m := heffect
      exact .refl _
    | ok b =>
      obtain ⟨-, rfl⟩ := heffect
      exact includes_setBuffer
  | write device b offset shape data =>
    obtain ⟨-, id, buf, hspan⟩ := hpermits
    have hstored : m.Stored b r (fun buf xs =>
        xs = overlay offset.toNat data.toList buf.data.toList) m' :=
      heffect
    exact hstored.includes hspan.named hspan.present
  | read =>
    obtain ⟨⟨id, buf, hspan⟩, a, ha, -⟩ := hpermits
    obtain ⟨a', -, rfl, -⟩ := heffect id buf a hspan.named hspan.present ha
    exact .refl _
  | copy =>
    obtain ⟨id, buf, id', buf', hsource, htarget, -⟩ := hpermits
    exact (heffect id buf hsource.named hsource.present).includes htarget.named htarget.present
  | launch =>
    obtain ⟨-, target, buf, rest, rfl, hrun⟩ := hpermits
    exact Stored.includes heffect rfl hrun.present
  | hostArray =>
    obtain ⟨-, a, -, rfl⟩ := heffect
    exact .refl _
  | hostContents =>
    obtain ⟨rfl, -⟩ := heffect
    exact .refl _
  | build | wait | synchronize | clock | report | multiply =>
    obtain rfl : m' = m := heffect
    exact .refl _

theorem Stored.imp {β : Type} {r : Except DeviceFault β} {target : Option BufferId}
    {intended intended' : Buffer → List Scalar → Prop} (hstored : m.Stored target r intended m')
    (hintended : ∀ buf xs, intended buf xs → intended' buf xs) :
    m.Stored target r intended' m' := by
  intro id buf htarget hbuf
  obtain ⟨data, hsize, hm', hdata⟩ := hstored id buf htarget hbuf
  exact ⟨data, hsize, hm', fun a ha => hintended buf _ (hdata a ha)⟩

theorem Stored.without {β : Type} {r : Except DeviceFault β} {target : Option BufferId}
    {intended : Buffer → List Scalar → Prop} {id : BufferId} {buf : Buffer}
    (hstored : m.Stored target r intended m') (htarget : target = some id)
    (hbuf : (m.without m₀).buffer id = some buf) :
    (m.without m₀).Stored target r intended (m'.without m₀) := by
  obtain ⟨hnone, hbuf'⟩ := buffer_without.mp hbuf
  obtain ⟨data, hsize, rfl, hdata⟩ := hstored id buf htarget hbuf'
  intro id' buf'' htarget' hbuf''
  obtain rfl := Option.some_inj.mp (htarget.symm.trans htarget')
  obtain rfl := Option.some_inj.mp (hbuf.symm.trans hbuf'')
  exact ⟨data, hsize, without_setBuffer hnone, hdata⟩

theorem Computes.without {source : KernelSource} {type : ElementType} {n : Nat}
    {rest : List Argument} {values : List Scalar}
    (hcomputes : m.Computes A source type n rest values) :
    (m.without m₀).Computes A source type n rest values := by
  refine ⟨hcomputes.length, fun i hi args hargs => hcomputes.value i hi args ?_⟩
  rw [mapM_eq_some_iff] at hargs ⊢
  refine hargs.imp fun arg v hv => ?_
  cases arg with
  | buffer b =>
    obtain ⟨buf, hbuf, hload⟩ := Option.bind_eq_some_iff.mp hv
    obtain ⟨id, rfl, hid⟩ := Option.bind_eq_some_iff.mp hbuf
    rw [Argument.valueAt, Option.bind_some, (buffer_without.mp hid).2]
    exact hload
  | scalar t value => cases t <;> exact hv

/-- A command does the same where buffers are missing that it does not need. -/
theorem Effect.without (hpermits : Permits suits c (m.without m₀)) (heffect : Effect A c m r m')
    (hm : m.Includes m₀) : Effect A c (m.without m₀) r (m'.without m₀) := by
  cases c with
  | allocate =>
    cases r with
    | error e =>
      obtain rfl : m' = m := heffect
      rfl
    | ok b =>
      obtain ⟨hnew, rfl⟩ := heffect
      exact ⟨buffer_without_eq_none hnew, without_setBuffer (hm b hnew)⟩
  | write device b offset shape data =>
    obtain ⟨-, id, buf, hspan⟩ := hpermits
    have hstored : m.Stored b r (fun buf xs =>
        xs = overlay offset.toNat data.toList buf.data.toList) m' :=
      heffect
    exact hstored.without hspan.named hspan.present
  | read =>
    obtain ⟨⟨id, buf, hspan⟩, a, ha, -⟩ := hpermits
    obtain ⟨a', hsize, rfl, hvalues⟩ :=
      heffect id buf a hspan.named (buffer_without.mp hspan.present).2 ha
    -- the effect is stated for all buffers of this name, and there is only one
    intro id' buf' a'' hid' hbuf' ha''
    obtain rfl := Option.some_inj.mp (hspan.named.symm.trans hid')
    obtain rfl := Option.some_inj.mp (hspan.present.symm.trans hbuf')
    obtain rfl := Option.some_inj.mp (ha.symm.trans ha'')
    exact ⟨a', hsize, rfl, hvalues⟩
  | copy =>
    obtain ⟨id, buf, id', buf', hsource, htarget, -⟩ := hpermits
    have hstored := heffect id buf hsource.named (buffer_without.mp hsource.present).2
    intro id'' buf'' hid'' hbuf''
    obtain rfl := Option.some_inj.mp (hsource.named.symm.trans hid'')
    obtain rfl := Option.some_inj.mp (hsource.present.symm.trans hbuf'')
    exact hstored.without htarget.named htarget.present
  | launch =>
    obtain ⟨-, target, buf, rest, rfl, hrun⟩ := hpermits
    exact (Stored.without heffect rfl hrun.present).imp fun _ _ hcomputes => hcomputes.without
  | hostArray =>
    obtain ⟨hnew, a, hsize, rfl⟩ := heffect
    exact ⟨hnew, a, hsize, rfl⟩
  | hostContents =>
    obtain ⟨rfl, hvalues⟩ := heffect
    exact ⟨rfl, hvalues⟩
  | build | wait | synchronize | clock | report | multiply =>
    obtain rfl : m' = m := heffect
    rfl

end Memory

/-- A program that may run where the buffers of a memory are missing names none of them. -/
theorem Program.Ensures.not_names (meets : h.Meets view (deviceContract A suits)) {p : Program α}
    {good : α → Memory → Prop} (hm : (view x).Includes m₀)
    (hp : p.Ensures (deviceContract A suits) good ((view x).without m₀)) :
    ∀ c ∈ p.calls h x, ∀ b, c.Names b → m₀.buffer b = none := by
  induction p generalizing x with
  | pure a => exact nofun
  | call c next ih =>
    -- the run with all buffers is followed by one in which those of `m₀` are missing
    obtain ⟨hnames, hpermits⟩ := Memory.Permits.of_without hp.1
    have heffect := meets c x hpermits
    intro c' hc'
    rcases List.mem_cons.mp hc' with rfl | hc'
    · exact hnames
    · exact ih _ ((heffect.includes hpermits).trans hm) (hp.2 _ _ (heffect.without hp.1 hm)) c' hc'

end DistributedVector

import Mosaic.Proofs.Cascade.Room
import Mosaic.Proofs.Layout.Course

/-! Layouts whose regions cover a box and have their minimums. Moves inside the container keep that, and
so does a resize with a size range, whatever it asks for. -/
namespace Mosaic.Layout

variable {W : Type} {l l' : Layout W} {box box' target : Rect} {held : Grip} {goal : Point}

def Roomy (l : Layout W) (box : Rect) : Prop := box.Roomy l.mins l.store.bounds

theorem Roomy.reflow (h : l.Roomy box) (hr : Reflow l box l' box') : l'.Roomy box' := by
  unfold Roomy
  rw [hr.rearranged.mins]
  refine Rect.Roomy.reflow h hr.rects fun i min hmin axis => ?_
  have hmins : (l.scene l.bounds).mins[i]? = some min := hmin
  exact Scene.le_minAlong hmins axis

theorem Roomy.write (h : l.Roomy l.bounds) {plan : Plan} {trace : Trace}
    (hplan : (l.scene l.bounds).planFrom held goal {} = .ok (plan, trace)) : (l.write plan).Roomy l.bounds :=
  h.reflow (planFrom_reflow (h.tile.woven h.outer h.sharp) h.outer.fits hplan fun _ _ _ => ⟨rfl, rfl⟩).1

theorem Roomy.drag (h : l.Roomy l.bounds) {o : Outcome W Grip} (ho : l.drag held goal = .ok o) :
    o.layout.Roomy o.layout.bounds := by
  obtain ⟨plan, trace, hplan, hlayout⟩ := drag_eq_ok ho
  exact hlayout ▸ h.write hplan

theorem Roomy.move (h : l.Roomy l.bounds) {o : Outcome W Grip} (ho : l.move held goal = .ok o) :
    o.layout.Roomy o.layout.bounds := by
  obtain ⟨plan, trace, hplan, hlayout⟩ := move_eq_ok ho
  exact hlayout ▸ h.write hplan

theorem Roomy.resize (h : l.Roomy l.bounds) (hranged : l.hasSizeRange = true) (ht : HasPlace l.bounds target)
    {o : Outcome W Rect} (ho : l.resize target = .ok o) : o.layout.Roomy o.layout.bounds :=
  h.reflow (resize_reflow hranged h.outer h.sharp h.tile ht ho).1

end Mosaic.Layout

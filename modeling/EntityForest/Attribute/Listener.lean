import EntityForest.Attribute.Bag

/-! How a listener of a bag is called. It has one callback for each kind of change. -/

namespace EntityForest

/-- The callbacks of a listener, which act on a state. -/
structure ChangeCallbacks (σ : Type) where
  added : AttributeEvent → σ → σ
  changed : AttributeEvent → σ → σ
  removed : AttributeEvent → σ → σ

namespace ChangeCallbacks

variable {σ : Type}

/-- One callback for all kinds of changes, which is told its kind. -/
def uniform (callback : Change → AttributeEvent → σ → σ) : ChangeCallbacks σ :=
  ⟨callback .added, callback .changed, callback .removed⟩

/-- Calls the callback that the event is for. -/
def dispatch (callbacks : ChangeCallbacks σ) (event : AttributeEvent) : σ → σ :=
  match event.change with
  | .added => callbacks.added event
  | .changed => callbacks.changed event
  | .removed => callbacks.removed event

theorem dispatch_uniform (callback : Change → AttributeEvent → σ → σ) (event : AttributeEvent) :
    (uniform callback).dispatch event = callback event.change event := by
  obtain ⟨name, typeName, change⟩ := event
  cases change <;> rfl

end ChangeCallbacks

end EntityForest

namespace MethodMarkers

structure Traced (ε α : Type) where
  value : α
  trace : List ε

namespace Traced

instance {ε : Type} : Monad (Traced ε) where
  pure a := ⟨a, []⟩
  bind x f := ⟨(f x.value).value, x.trace ++ (f x.value).trace⟩

def happen {ε : Type} (event : ε) : Traced ε Unit :=
  ⟨(), [event]⟩

def mapTrace {ε δ α : Type} (f : ε → δ) (x : Traced ε α) : Traced δ α :=
  ⟨x.value, x.trace.map f⟩

@[simp] theorem value_pure {ε α : Type} (a : α) : (pure a : Traced ε α).value = a :=
  rfl

@[simp] theorem trace_pure {ε α : Type} (a : α) : (pure a : Traced ε α).trace = [] :=
  rfl

@[simp] theorem value_bind {ε α β : Type} (x : Traced ε α) (f : α → Traced ε β) :
    (x >>= f).value = (f x.value).value :=
  rfl

@[simp] theorem trace_bind {ε α β : Type} (x : Traced ε α) (f : α → Traced ε β) :
    (x >>= f).trace = x.trace ++ (f x.value).trace :=
  rfl

@[simp] theorem trace_happen {ε : Type} (event : ε) : (happen event).trace = [event] :=
  rfl

@[simp] theorem value_mapTrace {ε δ α : Type} (f : ε → δ) (x : Traced ε α) :
    (x.mapTrace f).value = x.value :=
  rfl

@[simp] theorem trace_mapTrace {ε δ α : Type} (f : ε → δ) (x : Traced ε α) :
    (x.mapTrace f).trace = x.trace.map f :=
  rfl

instance {ε : Type} : LawfulMonad (Traced ε) :=
  LawfulMonad.mk' _ (fun _ => by simp [Functor.map])
    (fun _ _ => by simp [Bind.bind, Pure.pure]) (fun _ _ _ => by simp [Bind.bind])

end Traced

end MethodMarkers

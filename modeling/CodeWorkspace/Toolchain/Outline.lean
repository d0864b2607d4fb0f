import CodeWorkspace.Outline.Parse
import CodeWorkspace.Symbols.Binding

/-! The toolchain that works on outlines alone. -/
namespace CodeWorkspace.Toolchain

def outline : Toolchain where
  name := "outline"
  parse path text := .ok (Outline.parse path text)
  bind project units references := .ok (Bound.ofUnits project units references)

theorem isRobust_outline : outline.IsRobust where
  parse path text := ⟨Outline.parse path text, rfl⟩
  bind project units references := ⟨Bound.ofUnits project units references, rfl⟩

end CodeWorkspace.Toolchain

import FileMagic.RuleText.Source

/-! The signature of a Linux boot image is at 514 and that of its boot sector at 510. A pointer
at 526, relative to 512, leads to the version. -/

namespace FileMagic.Builtin

def kernelLines : List Text := [
  "514\tstring\tHdrS\tLinux kernel".toList,
  ">510\tuleshort\t0xAA55\tx86 boot executable".toList,
  ">>518\tuleshort\t>0x1ff".toList,
  ">>>529\tbyte\t0\t\\b, zImage".toList,
  ">>>529\tbyte\t1\t\\b, bzImage".toList,
  ">>>526\tulelong\t>0".toList,
  ">>>>(526.s+0x200)\tbyte\t>0".toList,
  ">>>>>(526.s+0x200)\tdefault\tx\t\\b, version %s".toList,
  ">>498\tuleshort\t1\t\\b, RO-rootFS".toList,
  ">>498\tuleshort\t0\t\\b, RW-rootFS".toList,
  ">>508\tuleshort\t>0\t\\b, root_dev %#X".toList,
  ">>502\tuleshort\t>0\t\\b, swap_dev %#X".toList,
  ">>504\tuleshort\t>0\t\\b, RAMdisksize %u KB".toList,
  ">>506\tuleshort\t0xffff\t\\b, Normal VGA".toList,
  ">>506\tuleshort\t0xfffe\t\\b, Extended VGA".toList,
  ">>506\tuleshort\t0xfffd\t\\b, Prompt for Videomode".toList,
  ">>506\tleshort\t>0\t\\b, Video mode %d".toList]

end FileMagic.Builtin

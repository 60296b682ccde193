import FunnyOS.Lib.Prog
import FunnyOS.Lib.Linked
import FunnyOS.Fat32.Names
import FunnyOS.Fat32.Api
import FunnyOS.Fat32.Volume
import FunnyOS.Fat32.Chain
import FunnyOS.Fat32.ClusterSpec
import FunnyOS.Fat32.FileSpec
import FunnyOS.Fat32.Slots
import FunnyOS.Fat32.DirectorySpec
import FunnyOS.Lib.Checked
import FunnyOS.Fat32.LongNames
import FunnyOS.Fat32.SlotEdit
import FunnyOS.Fat32.FreeSlots
import FunnyOS.Fat32.LongNameSets
import FunnyOS.Fat32.NameSpec
import FunnyOS.Fat32.LongNameRuns
import FunnyOS.Lib.Ownership
import FunnyOS.Lib.Run
import FunnyOS.Fat32.Ownership
import FunnyOS.Fat32.SlotShape
import FunnyOS.Fat32.LiveSlots
import FunnyOS.Fat32.Account
import FunnyOS.Fat32.Paths
import FunnyOS.Fat32.Resolve
import FunnyOS.Fat32.FileUpdate
import FunnyOS.Fat32.EntrySpec
import FunnyOS.Fat32.MakeDir
import FunnyOS.Fat32.Remove
import FunnyOS.Fat32.SlotMoves
import FunnyOS.Fat32.Rename
import FunnyOS.Fat32.WellFormed
import FunnyOS.Fat32.WriteFile
import FunnyOS.Fat32.Operations
import FunnyOS.Fat32.Check
import FunnyOS.Fat32.Tree
import FunnyOS.Fat32.Integrity
import FunnyOS.Fat32.Space
import FunnyOS.Fat32.Reading
import FunnyOS.Fat32.Failure
import FunnyOS.Fat32.WriteSizes
import FunnyOS.Lib.Ranges
import FunnyOS.Lib.Pool
import FunnyOS.Memory.Pages
import FunnyOS.Memory.PageTable
import FunnyOS.Memory.MemoryInit
import FunnyOS.Memory.Blocks
import FunnyOS.Memory.FreeMap
import FunnyOS.Lib.Tiles
import FunnyOS.Memory.Heap
import FunnyOS.Memory.HeapBlocks
import FunnyOS.Memory.HeapSizes
import FunnyOS.Memory.HeapAlignment
import FunnyOS.Lib.TableTree
import FunnyOS.Memory.Paging
import FunnyOS.Memory.PageEntries
import FunnyOS.Memory.KernelTables
import FunnyOS.Memory.PagingInit
import FunnyOS.Memory.AddressSpace
import FunnyOS.Memory.AccessedBits
import FunnyOS.Lib.SharedTree
import FunnyOS.Memory.Walks
import FunnyOS.Memory.SharedTables
import FunnyOS.Memory.MapRange
import FunnyOS.Memory.Roots
import FunnyOS.Fat32.Layout
import FunnyOS.Fat32.Listing
import FunnyOS.Fat32.Uniqueness
import FunnyOS.Fat32.Frame
import FunnyOS.Fat32.Creation
import FunnyOS.Fat32.Removal
import FunnyOS.Fat32.ReadBack
import FunnyOS.Fat32.Subtree
import FunnyOS.Fat32.NameRoundTrip
import FunnyOS.Fat32.Aliases
import FunnyOS.Fat32.PathWalks
import FunnyOS.Fat32.Scans
import FunnyOS.Lib.Overlay
import FunnyOS.Programs.Image
import FunnyOS.Programs.ImageLayout
import FunnyOS.Lib.Ends
import FunnyOS.Lib.Words
import FunnyOS.Kernel.Path
import FunnyOS.Kernel.PathText
import FunnyOS.Boot.DevicePath
import FunnyOS.Boot.DevicePathWalk
import FunnyOS.Boot.KernelImage
import FunnyOS.Boot.KernelImageBounds
import FunnyOS.Devices.Ata
import FunnyOS.Devices.AtaAddresses
import FunnyOS.Devices.Acpi
import FunnyOS.Tools.FatLayout
import FunnyOS.Programs.Arguments
import FunnyOS.Programs.ArgumentStrings
import FunnyOS.Devices.AcpiTables
import FunnyOS.Lib.For
import FunnyOS.Devices.Console
import FunnyOS.Devices.ConsolePaint
import FunnyOS.Devices.ConsoleGrid
import FunnyOS.Lib.Parts
import FunnyOS.Memory.Hosting
import FunnyOS.Devices.Keyboard
import FunnyOS.Programs.Process
import FunnyOS.Programs.Syscalls
import FunnyOS.Programs.LoadedProcess
import FunnyOS.Programs.ProcessRun
import FunnyOS.Programs.UserMemory
import FunnyOS.Fat32.ExactNames
import FunnyOS.Tools.ShortNames
import FunnyOS.Tools.FatImage
import FunnyOS.Tools.MountedImage
import FunnyOS.Tools.ShownNames
import FunnyOS.Tools.ImageTree
import FunnyOS.Tools.ImageBytes
import FunnyOS.Tools.ImageSlots
import FunnyOS.Tools.ImageVolume
import FunnyOS.Tools.ImageFiles
import FunnyOS.Tools.RoundTrip
import FunnyOS.Fat32.Moves
import FunnyOS.Fat32.DotSlots
import FunnyOS.Fat32.KeptPaths
import FunnyOS.Kernel.Shell
import FunnyOS.Kernel.ShellLines
import FunnyOS.Kernel.CurrentDirectory
import FunnyOS.Lib.Unless
import FunnyOS.Boot.Efi
import FunnyOS.Boot.LoadedKernel
import FunnyOS.Boot.EfiErrors
import FunnyOS.Boot.GraphicsMode
import FunnyOS.Boot.EfiMain
import FunnyOS.Lib.EndsWhen
import FunnyOS.Memory.Balance
import FunnyOS.Memory.ActiveRoot
import FunnyOS.Memory.Isolation
import FunnyOS.Programs.ActiveRoot
import FunnyOS.Programs.ProcessBalance
import FunnyOS.Programs.ProcessIsolation
import FunnyOS.Lib.FileTree
import FunnyOS.Fat32.TreeView
import FunnyOS.Fat32.TreeRuns
import FunnyOS.Kernel.ShellTree
import FunnyOS.Fat32.Remount
import FunnyOS.Devices.Pci
import FunnyOS.Devices.PciFunctions
import FunnyOS.Lib.KnownStore
import FunnyOS.Devices.Ahci
import FunnyOS.Devices.AhciController
import FunnyOS.Devices.AhciCommand
import FunnyOS.Devices.AhciTransfers
import FunnyOS.Devices.AhciInit
import FunnyOS.Devices.AhciRuns
import FunnyOS.Devices.AtaProtocol
import FunnyOS.Devices.AtaTransfers
import FunnyOS.Devices.AtaRuns
import FunnyOS.Devices.Driver
import FunnyOS.Devices.Block
import FunnyOS.Lib.Gives
import FunnyOS.Devices.BlockEnds
import FunnyOS.Devices.BlockInit
import FunnyOS.Devices.BlockRuns
import FunnyOS.Programs.TypedLine

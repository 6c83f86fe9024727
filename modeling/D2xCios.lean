import D2xCios.Ra.Mutations
import D2xCios.Ra.ParseBounds
import D2xCios.Ra.ChainRuns
import D2xCios.Ra.Resync
import D2xCios.Ra.Handoff
import D2xCios.Ra.PipelineEquiv
import D2xCios.Ra.WindowRotation
import D2xCios.Ra.Bounds
import D2xCios.Ra.WatchlistFetch
import D2xCios.Ra.TableFetch
import D2xCios.Ra.Checksum
import D2xCios.Usb.Attribution
import D2xCios.Usb.Ownership
import D2xCios.Dip.Stealth
import D2xCios.Dip.Flash
import D2xCios.Dip.ReadDvd
import D2xCios.Dip.Reload
import D2xCios.Disk.Errors
import D2xCios.Disk.Sessions
import D2xCios.Lib.Collapse
import D2xCios.Exi.Batch
import D2xCios.Dip.FragBounds
import D2xCios.Usb.Framing
import D2xCios.Ffs.NandPath
import D2xCios.Fat.Volumes
import D2xCios.Fat.Wrapper
import D2xCios.Fat.Walks
import D2xCios.Fat.Usage
import D2xCios.Fat.Deletion
import D2xCios.Fat.ReadErrors
import D2xCios.Dip.NandReload
import D2xCios.Sd.Sectors
import D2xCios.Fat.Tools
import D2xCios.Ffs.OpenFiles
import D2xCios.Ffs.PathBuffers
import D2xCios.UsbStorage.Descriptors
import D2xCios.UsbStorage.Layout
import D2xCios.UsbStorage.Bulk
import D2xCios.UsbStorage.Attempts
import D2xCios.UsbStorage.Sectors
import D2xCios.CiosLib.Strings
import D2xCios.Mload.Device
import D2xCios.Lib.Pieces
import D2xCios.CiosLib.Overlaps
import D2xCios.Fat.Listing
import D2xCios.Lib.Placement
import D2xCios.Stripios.Main
import D2xCios.Stripios.Layout
import D2xCios.Stripios.Segments
import D2xCios.Lib.Relocation
import D2xCios.Fat.Untouched
import D2xCios.Fat.Rename
import D2xCios.Fat.Places
import D2xCios.Fat.Replacement
import D2xCios.Fat.Atomic
import D2xCios.Es.Plugin
import D2xCios.Lib.Responses
import D2xCios.Lib.Runs
import D2xCios.Es.Launch
import D2xCios.Ffs.ForcedOpens
import D2xCios.Lib.Programs
import D2xCios.Lib.Packings
import D2xCios.FatFs.Window
import D2xCios.FatFs.Table
import D2xCios.Lib.Chains
import D2xCios.FatFs.Clusters
import D2xCios.FatFs.Files
import D2xCios.Lib.Blocks
import D2xCios.FatFs.Contents
import D2xCios.FatFs.Reading
import D2xCios.FatFs.Seeking
import D2xCios.FatFs.Writing
import D2xCios.Lib.BlockFiles
import D2xCios.FatFs.Syncing
import D2xCios.FatFs.Sessions
import D2xCios.FatFs.Mount
import D2xCios.Lib.Scans
import D2xCios.FatFs.CodePage
import D2xCios.FatFs.LongNames
import D2xCios.FatFs.Entries
import D2xCios.FatFs.Lookups
import D2xCios.FatFs.Directories
import D2xCios.FatFs.Removal
import D2xCios.FatFs.Listings
import D2xCios.FatFs.ShortNames
